import ModularLexer.Regex.Class
import ModularLexer.Regex.Node

/-!
Reading a whole expression from its source text, one construct at a time, with the open groups kept
on a list.
-/
namespace ModularLexer.Regex

/-- Part of an expression that is read: its tree, how deep its source is nested, and whether it may
be repeated, which a setting of flags may not. -/
structure Item where
  node : Node
  depth : Nat
  operand : Bool
  deriving Repr

namespace Item

/-- The items in order, the latest first in the list, as one item. -/
def sequence : List Item → Item
  | [] => ⟨.empty, 0, true⟩
  | [item] => item
  | item :: items =>
    ⟨.sequence ((item :: items).reverse.map (·.node)),
      items.foldl (fun depth item => max depth item.depth) item.depth + 1, true⟩

/-- The items as alternatives, the least preferred first in the list. -/
def alternatives : List Item → Item
  | [] => ⟨.empty, 0, true⟩
  | [item] => item
  | item :: items =>
    ⟨.choice ((item :: items).reverse.map (·.node)),
      items.foldl (fun depth item => max depth item.depth) item.depth + 1, true⟩

end Item

/-- A group whose end is still to come: what it captures as, and the flags, items and alternatives
around it. -/
structure OpenGroup where
  capture : Option Nat
  flags : Flags
  items : List Item
  branches : List Item
  deriving Repr

/-- An expression while it is read. The latest items and alternatives come first. -/
structure Draft where
  flags : Flags
  items : List Item
  branches : List Item
  groups : List OpenGroup
  captures : Nat
  names : List Text
  deriving Repr

namespace Draft

def blank : Draft := ⟨.none, [], [], [], 0, []⟩

def add (d : Draft) (node : Node) (depth : Nat) : Draft :=
  { d with items := ⟨node, depth, true⟩ :: d.items }

/-- Adds one character of a set, after folding case where it is ignored. -/
def addSet (d : Draft) (s : CharSet) (depth : Nat) : Draft := d.add (.ofSet d.flags.ascii s) depth

def openGroup (d : Draft) (capture : Option Nat) (flags : Flags) : Draft :=
  { d with
    flags := flags
    items := []
    branches := []
    groups := ⟨capture, d.flags, d.items, d.branches⟩ :: d.groups }

def openCapture (d : Draft) : Draft :=
  { d.openGroup (some (d.captures + 1)) d.flags with captures := d.captures + 1 }

/-- All that was read since the innermost open group began. -/
def body (d : Draft) : Item := .alternatives (.sequence d.items :: d.branches)

def closeGroup (d : Draft) : Except Cause Draft :=
  match d.groups with
  | [] => .error .unopenedGroup
  | group :: groups =>
    let node := match group.capture with
      | some index => .group index d.body.node
      | none => d.body.node
    .ok { d with
      flags := group.flags
      items := ⟨node, d.body.depth + 1, true⟩ :: group.items
      branches := group.branches
      groups := groups }

def alternate (d : Draft) : Draft :=
  { d with items := [], branches := .sequence d.items :: d.branches }

def repeatLast (d : Draft) (least : Nat) (most : Option Nat) (greedy : Bool) :
    Except Cause Draft :=
  match d.items with
  | item :: items =>
    if item.operand then
      .ok { d with
        items := ⟨item.node.repeated least most (greedy != d.flags.swapGreed), item.depth + 1, true⟩
          :: items }
    else .error .missingOperand
  | [] => .error .missingOperand

/-- A question mark after a repetition makes it prefer to stop. -/
def readGreed : Text → Bool × Text
  | '?' :: rest => (false, rest)
  | rest => (true, rest)

def startsName (c : Char) : Bool := c == '_' || CharSet.nameStart.contains c

def inName (c : Char) : Bool :=
  c == '_' || c == '.' || c == '[' || c == ']' || CharSet.nameRest.contains c

/-- Reads a group's name, up to an angle bracket, and opens the group. -/
def readName (d : Draft) (t : Text) : Except Cause (Draft × Text) :=
  match t.span (· != '>') with
  | (first :: name, '>' :: rest) =>
    if !startsName first || !name.all inName then .error .badGroupName
    else if d.names.contains (first :: name) then .error .duplicateGroupName
    else .ok ({ d.openCapture with names := (first :: name) :: d.names }, rest)
  | _ => .error .badGroupName

/-- Reads the front of a group after its parenthesis, or a setting of flags for the rest of the
group around it. -/
def readGroup (d : Draft) (t : Text) : Except Cause (Draft × Text) :=
  match d.flags.skip t with
  | '?' :: '=' :: _ => .error .lookaround
  | '?' :: '!' :: _ => .error .lookaround
  | '?' :: '<' :: '=' :: _ => .error .lookaround
  | '?' :: '<' :: '!' :: _ => .error .lookaround
  | '?' :: 'P' :: '<' :: rest => d.readName rest
  | '?' :: '<' :: rest => d.readName rest
  | '?' :: rest => do
    let (flags, opens, rest) ← d.flags.read [] false false rest
    if opens then return (d.openGroup none flags, rest)
    return ({ d with flags := flags, items := ⟨.empty, 0, false⟩ :: d.items }, rest)
  | rest => .ok (d.openCapture, rest)

def countLimit : Nat := 0xFFFFFFFF

/-- Reads the digits of a count. The first argument bounds their number. -/
def readDigits (f : Flags) : Nat → Text → List Char × Text
  | 0, t => ([], t)
  | bound + 1, c :: rest =>
    if c.isDigit then
      let (digits, rest) := readDigits f bound (f.skip rest)
      (c :: digits, rest)
    else ([], c :: rest)
  | _ + 1, [] => ([], [])

/-- Reads a count with white space around it; there may be no digits at all. -/
def readCount (f : Flags) (t : Text) : Except Cause (Option Nat × Text) :=
  let t := t.dropWhile CharSet.blank.contains
  let (digits, rest) := readDigits f t.length t
  let rest := f.skip (rest.dropWhile CharSet.blank.contains)
  if digits.isEmpty then .ok (none, rest)
  else
    let count := digits.foldl (fun count c => 10 * count + (c.toNat - '0'.toNat)) 0
    if countLimit < count then .error .badCount else .ok (some count, rest)

/-- Reads a counted repetition after its brace: one count, a least count alone, or both counts in
order. -/
def readCounts (d : Draft) (t : Text) : Except Cause (Draft × Text) := do
  let close (least : Nat) (most : Option Nat) (rest : Text) := do
    if most.any (· < least) then .error .badCount
    let (greedy, rest) := readGreed (d.flags.skip rest)
    return (← d.repeatLast least most greedy, rest)
  match ← readCount d.flags (d.flags.skip t) with
  | (some least, '}' :: rest) => close least (some least) rest
  | (some least, ',' :: rest) =>
    match d.flags.skip rest with
    | '}' :: rest => close least none rest
    | rest =>
      match ← readCount d.flags rest with
      | (some most, '}' :: rest) => close least (some most) rest
      | _ => .error .badCount
  | _ => .error .badCount

def dot (f : Flags) : Except Cause CharSet :=
  if f.ascii then .error .beyondText
  else if f.dotAll then .ok .all
  else if f.returns then .ok (.compl (.ofList ['\r', '\n']))
  else .ok (.compl (.single '\n'))

def startTest (f : Flags) : Assertion :=
  if f.multiLine then (if f.returns then .returnLineStart else .lineStart) else .textStart

def stopTest (f : Flags) : Assertion :=
  if f.multiLine then (if f.returns then .returnLineStop else .lineStop) else .textStop

def step (d : Draft) (c : Char) (rest : Text) : Except Cause (Draft × Text) :=
  match c with
  | '(' => d.readGroup rest
  | ')' => do return (← d.closeGroup, rest)
  | '|' => .ok (d.alternate, rest)
  | '[' => do
    let (set, depth, rest) ← Class.read d.flags rest
    return (d.addSet set depth, rest)
  | '?' => do
    let (greedy, rest) := readGreed rest
    return (← d.repeatLast 0 (some 1) greedy, rest)
  | '*' => do
    let (greedy, rest) := readGreed rest
    return (← d.repeatLast 0 none greedy, rest)
  | '+' => do
    let (greedy, rest) := readGreed rest
    return (← d.repeatLast 1 none greedy, rest)
  | '{' =>
    if d.items.head?.any (·.operand) then d.readCounts rest else .error .missingOperand
  | '.' => do return (d.addSet (← dot d.flags) 0, rest)
  | '^' => .ok (d.add (.check (startTest d.flags)) 0, rest)
  | '$' => .ok (d.add (.check (stopTest d.flags)) 0, rest)
  | '\\' => do
    match ← Atom.readEscape d.flags rest with
    | (.char c, rest) => return (d.addSet (d.flags.fold (.single c)) 0, rest)
    | (.chars s, rest) => return (d.addSet s 0, rest)
    | (.check test, rest) => return (d.add (.check test) 0, rest)
  | c => .ok (d.addSet (d.flags.fold (.single c)) 0, rest)

/-- Reads constructs up to the end of the source. The first argument bounds their number. -/
def readAll : Nat → Draft → Text → Except Cause Draft
  | 0, d, _ => .ok d
  | bound + 1, d, t =>
    match d.flags.skip t with
    | [] => .ok d
    | c :: rest => do
      let (d, rest) ← d.step c rest
      readAll bound d rest

def depthLimit : Nat := 250

end Draft

def Node.ofSource (source : Text) : Except Cause Node := do
  let d ← Draft.blank.readAll (source.length + 1) source
  if !d.groups.isEmpty then .error .unclosedGroup
  else if Draft.depthLimit < d.body.depth then .error .tooDeep
  else return d.body.node

end ModularLexer.Regex
