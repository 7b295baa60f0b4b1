import ModularLexer.CharSet.Utf8
import ModularLexer.Text

/-!
How large an automaton over bytes grows: its states are counted, and the bytes that their
transitions take, while it is built for texts and sets of characters. States of a set are shared
as far as a table of fixed size remembers them, so what a set adds depends a little on the number of
states before it.
-/
namespace ModularLexer.Regex

/-- The number of states of an automaton, and the bytes of their transitions. -/
structure Tally where
  states : Nat
  bytes : Nat
  deriving DecidableEq, Repr

namespace Tally

def none : Tally := ⟨0, 0⟩

def stateBytes : Nat := 32

def rangeBytes : Nat := 8

def forkBytes : Nat := 4

def size (t : Tally) : Nat := stateBytes * t.states + t.bytes

def add (t u : Tally) : Tally := ⟨t.states + u.states, t.bytes + u.bytes⟩

def state (bytes : Nat) : Tally := ⟨1, bytes⟩

/-- The states of a set of ASCII: one that reads, and one to go on from. -/
def ofAscii (s : CharSet) : Tally := ⟨2, rangeBytes * s.ranges.length⟩

def ofText (t : Text) : Tally := ⟨Text.byteLength t, 0⟩

end Tally

inductive Direction where
  | forward
  | backward
  deriving DecidableEq, Repr

/-- An automaton while the states of a set are added: its tally, and the states remembered, each
under what it does. -/
structure Growth (κ : Type) where
  tally : Tally
  table : Array (Option (κ × Nat))

namespace Growth

/-- The place of a key in a table: the FNV-1a hash of its numbers. -/
def slot (key : List Nat) (places : Nat) : Nat :=
  (key.foldl (fun h n => (h ^^^ n.toUInt64) * 0x100000001B3) (0xCBF29CE484222325 : UInt64)).toNat
    % places

/-- The state that a place of a table remembers for a key. -/
def remembered? {κ : Type} [DecidableEq κ] (table : Array (Option (κ × Nat))) (place : Nat)
    (key : κ) : Option Nat :=
  match table[place]? with
  | some (some (known, id)) => if known = key then some id else none
  | _ => none

/-- The state that does what a key says: the one remembered in its place, or else a new one, which
is remembered instead. -/
def intern {κ : Type} [DecidableEq κ] (key : κ) (numbers : List Nat) (bytes : Nat) :
    Growth κ → Nat × Growth κ
  | ⟨tally, table⟩ =>
    let place := slot numbers table.size
    match remembered? table place key with
    | some id => (id, ⟨tally, table⟩)
    | none =>
      (tally.states,
        ⟨tally.add (.state bytes), table.setIfInBounds place (some (key, tally.states))⟩)

end Growth

/-- A transition: the range of bytes it reads, and the state it leads to. -/
abbrev Edge := CharSet.ByteRange × Nat

def Edge.numbers (e : Edge) : List Nat := [e.1.1.toNat, e.1.2.toNat, e.2]

/-- Gathers neighbouring rows that begin with the same range. -/
def gatherRows : List (List CharSet.ByteRange) →
    List (CharSet.ByteRange × List (List CharSet.ByteRange))
  | [] => []
  | [] :: rows => gatherRows rows
  | (r :: row) :: rows =>
    match gatherRows rows with
    | (s, rest) :: more =>
      if r = s then (r, row :: rest) :: more else (r, [row]) :: (s, rest) :: more
    | [] => [(r, [row])]

/-- Adds the states that read rows up to a target, the last ones first. The first argument bounds
the length of the rows. -/
def growForward (target : Nat) : Nat → List (List CharSet.ByteRange) → Growth (List Edge) →
    Nat × Growth (List Edge)
  | 0, _, g => (target, g)
  | length + 1, rows, g =>
    let step : List Edge × Growth (List Edge) →
        CharSet.ByteRange × List (List CharSet.ByteRange) → List Edge × Growth (List Edge) :=
      fun (edges, g) (r, rest) =>
        if rest.all (·.isEmpty) then ((r, target) :: edges, g)
        else
          let (id, g) := growForward target length rest g
          ((r, id) :: edges, g)
    let (edges, g) := (gatherRows rows).foldl step ([], g)
    let edges := edges.reverse
    g.intern edges (edges.flatMap Edge.numbers) (Tally.rangeBytes * edges.length)

/-- Adds the states that read a row from its last byte to its first, after which they go on at a
state. -/
def growBackward (next : Nat) (row : List CharSet.ByteRange) (g : Growth Edge) : Growth Edge :=
  let (_, g) := row.foldl (fun (next, g) r => g.intern (r, next) [next, r.1.toNat, r.2.toNat] 0)
    (next, g)
  { g with tally := g.tally.add ⟨0, Tally.forkBytes⟩ }

namespace Tally

def addSet (dir : Direction) (s : CharSet) (t : Tally) : Tally :=
  if s.isAscii then t.add (.ofAscii s)
  else
    match dir with
    | .forward =>
      (growForward t.states 4 s.rows ⟨t.add (.state 0), Array.replicate 10000 .none⟩).2.tally
    | .backward =>
      (s.rows.foldl (fun g row => growBackward (t.states + 1) row g)
        ⟨t.add ⟨2, 0⟩, Array.replicate 1000 .none⟩).tally

end Tally

def addTail (b : UInt8) (tail : List UInt8) :
    List (UInt8 × List (List UInt8)) → List (UInt8 × List (List UInt8))
  | [] => [(b, [tail])]
  | (c, tails) :: more =>
    if b = c then (b, tail :: tails) :: more else (c, tails) :: addTail b tail more

/-- Gathers byte strings by their first bytes, up to an empty one and from there on anew. -/
def gatherStrings (strings : List (List UInt8)) : List (List (UInt8 × List (List UInt8))) :=
  strings.foldr (fun string chunks =>
    match string, chunks with
    | [], chunks => [] :: chunks
    | b :: tail, [] => [addTail b tail []]
    | b :: tail, chunk :: chunks => addTail b tail chunk :: chunks) [[]]

/-- The states of a tree of byte strings. A chunk of branches is one state; a fork joins the chunks,
and the ends of strings between them. The first argument bounds the length of the strings. -/
def Tally.ofTree : Nat → List (List UInt8) → Tally
  | 0, _ => .none
  | length + 1, strings =>
    if strings.all (·.isEmpty) then .none
    else
      let ends := strings.takeWhile (·.isEmpty)
      let chunks := gatherStrings (ends.take 1 ++ strings.drop ends.length)
      let chunk (branches : List (UInt8 × List (List UInt8))) : Tally :=
        match branches with
        | [] => .none
        | [(_, tails)] => (Tally.state Tally.forkBytes).add (ofTree length tails)
        | branches =>
          branches.foldl (fun t (_, tails) => t.add (ofTree length tails))
            (.state (Tally.forkBytes + Tally.rangeBytes * branches.length))
      chunks.foldl (fun t branches => t.add (chunk branches))
        (.state (Tally.forkBytes * (chunks.length - 1)))

def Tally.ofTexts (dir : Direction) (texts : List Text) : Tally :=
  let strings := texts.map fun t =>
    let bytes := t.flatMap String.utf8EncodeChar
    match dir with
    | .forward => bytes
    | .backward => bytes.reverse
  (Tally.state 0).add (.ofTree ((strings.map List.length).foldl max 0) strings)

end ModularLexer.Regex
