import ModularLexer.Regex.Escape

/-!
Character classes in brackets: unions of items, nested classes and the operators between them.
-/
namespace ModularLexer.Regex.Class

inductive Operator where
  | inter
  | diff
  | symmDiff
  deriving DecidableEq, Repr

def Operator.apply : Operator → CharSet → CharSet → CharSet
  | inter => .inter
  | diff => .diff
  | symmDiff => .symmDiff

/-- The items of a class read so far: their union, their number, and how deep they are nested. -/
structure Items where
  set : CharSet
  count : Nat
  depth : Nat
  deriving Repr

namespace Items

def none : Items := ⟨.empty, 0, 0⟩

def add (u : Items) (s : CharSet) (depth : Nat) : Items where
  set := if u.count == 0 then s else .union u.set s
  count := u.count + 1
  depth := max u.depth depth

/-- How deep the union of the items is nested; a single item stands for itself. -/
def height (u : Items) : Nat := if u.count ≤ 1 then u.depth else u.depth + 1

end Items

/-- What waits for the part of a class being read: the class around it, or the left operand of an
operator. -/
inductive Level where
  | inside (outer : Items) (negated : Bool)
  | after (op : Operator) (left : CharSet) (height : Nat)
  deriving Repr

/-- Applies the operator that waits for this part as its right operand, if there is one. -/
def resolve (f : Flags) (set : CharSet) (height : Nat) :
    List Level → CharSet × Nat × List Level
  | .after op left leftHeight :: levels =>
    (op.apply (f.fold left) (f.fold set), max leftHeight height + 1, levels)
  | levels => (set, height, levels)

/-- Adds hyphens as items as long as there are any. The first argument bounds their number. -/
def readHyphens (f : Flags) : Nat → Items → Text → Items × Text
  | 0, items, t => (items, t)
  | bound + 1, items, t =>
    match f.skip t with
    | '-' :: rest => readHyphens f bound (items.add (.single '-') 0) rest
    | t => (items, t)

/-- Reads the front of a class after its bracket: a sign of negation, then hyphens, or else a
closing bracket, that stand for themselves. -/
def readFront (f : Flags) (t : Text) : Bool × Items × Text :=
  let (negated, t) := match f.skip t with
    | '^' :: rest => (true, f.skip rest)
    | t => (false, t)
  match readHyphens f t.length .none t with
  | (items, ']' :: rest) =>
    if items.count == 0 then (negated, items.add (.single ']') 0, rest)
    else (negated, items, ']' :: rest)
  | (items, rest) => (negated, items, rest)

/-- Reads a named class such as `[:alpha:]` or `[:^alpha:]`, of which the first bracket is read.
Whatever else stands there is no named class. -/
def readNamed? (t : Text) : Option (Bool × CharSet × Text) :=
  match t with
  | ':' :: rest =>
    let (negated, rest) := match rest with
      | '^' :: rest => (true, rest)
      | rest => (false, rest)
    match rest.span (· != ':') with
    | (name, ':' :: ']' :: rest) =>
      (CharSet.named? (String.ofList name)).map fun s => (negated, s, rest)
    | _ => none
  | _ => none

def readAtom (f : Flags) : Text → Except Cause (Atom × Text)
  | [] => .error .unclosedClass
  | '\\' :: rest => Atom.readEscape f rest
  | c :: rest => .ok (.char c, rest)

/-- A character as an item; the restriction to ASCII admits no others. -/
def charItem (f : Flags) (c : Char) : Except Cause Char :=
  if f.ascii && 0x7F < c.toNat then .error .beyondText else .ok c

def atomSet (f : Flags) : Atom → Except Cause CharSet
  | .char c => do return .single (← charItem f c)
  | .chars s => .ok s
  | .check _ => .error .badClassItem

/-- Reads an item: a range, or a single character or escape. A hyphen before a closing bracket or
another hyphen makes no range. -/
def readItem (f : Flags) (t : Text) : Except Cause (CharSet × Text) := do
  let (first, rest) ← readAtom f t
  match f.skip rest with
  | [] => .error .unclosedClass
  | '-' :: after =>
    if f.peekSpaced after == some ']' || f.peekSpaced after == some '-' then
      return (← atomSet f first, '-' :: after)
    let (last, rest) ← readAtom f (f.skip after)
    match first, last with
    | .char a, .char b =>
      if a ≤ b then return (.range (← charItem f a).toNat (← charItem f b).toNat, rest)
      else .error .reversedRange
    | _, _ => .error .badClassItem
  | rest => return (← atomSet f first, rest)

/-- Reads the rest of a class whose levels are open. The result is the set, how deep the class is
nested, and the text after it. The first argument bounds the number of steps. -/
def readRest (f : Flags) : Nat → Items → List Level → Text → Except Cause (CharSet × Nat × Text)
  | 0, _, _, _ => .error .unclosedClass
  | bound + 1, items, levels, t =>
    let operator (op : Operator) (rest : Text) :=
      let (left, height, levels) := resolve f items.set items.height levels
      readRest f bound .none (.after op left height :: levels) rest
    match f.skip t with
    | [] => .error .unclosedClass
    | '[' :: rest =>
      match readNamed? rest with
      | some (negated, named, rest) => do
        let named := f.fold named
        let named ← if negated then f.negate named else pure named
        readRest f bound (items.add named 0) levels rest
      | none =>
        let (negated, inner, rest) := readFront f rest
        readRest f bound inner (.inside items negated :: levels) rest
    | ']' :: rest => do
      let (set, height, levels) := resolve f items.set items.height levels
      match levels with
      | .inside outer negated :: levels =>
        let set := f.fold set
        let set ← if negated then f.negate set else pure set
        if levels.isEmpty then return (set, height + 1, rest)
        readRest f bound (outer.add set (height + 1)) levels rest
      | _ => .error .unclosedClass
    | '&' :: '&' :: rest => operator .inter rest
    | '-' :: '-' :: rest => operator .diff rest
    | '~' :: '~' :: rest => operator .symmDiff rest
    | t => do
      let (set, rest) ← readItem f t
      readRest f bound (items.add set 0) levels rest

/-- Reads a class, of which the opening bracket is already read. -/
def read (f : Flags) (t : Text) : Except Cause (CharSet × Nat × Text) :=
  let (negated, items, rest) := readFront f t
  readRest f (t.length + 1) items [.inside .none negated] rest

end ModularLexer.Regex.Class
