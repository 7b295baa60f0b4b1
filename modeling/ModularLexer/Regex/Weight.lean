import ModularLexer.Regex.Node
import ModularLexer.Regex.Tally

/-!
Expressions that would take too much memory are refused: those for which an automaton over bytes,
for reading forward with groups or backward without, grows beyond a limit.
-/
namespace ModularLexer.Regex

/-- Makes an automaton grow; there is no result once it is too large. -/
abbrev Weigh := Tally → Option Tally

namespace Weigh

def limit : Nat := 10485760

def within (t : Tally) : Option Tally := if t.size ≤ limit then some t else none

def more (u : Tally) : Weigh := fun t => within (t.add u)

def append (first second : Weigh) : Weigh := fun t => (first t).bind second

def times (body : Weigh) : Nat → Weigh
  | 0, t => some t
  | n + 1, t =>
    match body t with
    | some t => times body n t
    | none => none

def fork : Weigh := more (.state (2 * Tally.forkBytes))

def join : Weigh := more (.state 0)

end Weigh

inductive Rank where
  | only
  | second
  | later
  deriving DecidableEq, Repr

namespace Rank

def next : Rank → Rank
  | only => second
  | second => later
  | later => later

/-- What is added after the expression in a place: with the second alternative the state that forks
and the state where all meet, with each later one a way more. -/
def finish : Rank → Weigh
  | only => some
  | second => .append .fork .join
  | later => .more ⟨0, Tally.forkBytes⟩

end Rank

namespace Node

/-- Whether some part of an expression is an empty set. -/
def hasVoid : Node → Bool
  | empty => false
  | text _ => false
  | char set => set.ranges.isEmpty
  | byte set => set.ranges.isEmpty
  | check _ => false
  | group _ body => body.hasVoid
  | append first rest => first.hasVoid || rest.hasVoid
  | either first rest => first.hasVoid || rest.hasVoid
  | iterate body _ _ _ => body.hasVoid

def texts? : Node → Option (List Text)
  | text chars => some [chars]
  | either (text chars) rest => rest.texts?.map (chars :: ·)
  | _ => none

def weigh (dir : Direction) : Rank → Node → Weigh
  | rank, empty => .append .join rank.finish
  | rank, text chars => .append (.more (.ofText chars)) rank.finish
  | rank, char set => .append (fun t => Weigh.within (t.addSet dir set)) rank.finish
  | rank, byte set => .append (.more (.ofAscii set)) rank.finish
  | rank, check _ => .append .join rank.finish
  | rank, group _ body =>
    match dir with
    | .forward => .append (.append .join (.append (body.weigh dir .only) .join)) rank.finish
    | .backward => .append (body.weigh dir .only) rank.finish
  | rank, append first rest =>
    match dir with
    | .forward => .append (.append (first.weigh dir .only) (rest.weigh dir .only)) rank.finish
    | .backward => .append (.append (rest.weigh dir .only) (first.weigh dir .only)) rank.finish
  | rank, either first rest =>
    match rank, (either first rest).texts? with
    | .only, some texts => .more (.ofTexts dir texts)
    | rank, _ =>
      .append (first.weigh dir .only) (.append rank.finish (rest.weigh dir rank.next))
  | rank, iterate body least most _ =>
    let once := body.weigh dir .only
    let all : Weigh :=
      match least, most with
      | 0, some 1 => .append .fork (.append once .join)
      | 0, none =>
        if body.nullable || body.hasVoid then .append once (.append .fork (.append .fork .join))
        else .append .fork once
      | least, none => .append (once.times least) .fork
      | least, some most =>
        if least == most then once.times least
        else
          .append (if least == 0 then .join else once.times least)
            (.append .join ((Weigh.append .fork once).times (most - least)))
    .append all rank.finish

/-- Whether an expression matches only where a reader starts: at the start of the text, or for
reading backward at its stop. -/
def isAnchored (dir : Direction) : Node → Bool
  | check test => test == (match dir with | .forward => .textStart | .backward => .textStop)
  | group _ body => body.isAnchored dir
  | append first rest =>
    match dir with
    | .forward => first.isAnchored dir || first.readsNothing && rest.isAnchored dir
    | .backward => rest.isAnchored dir || rest.readsNothing && first.isAnchored dir
  | either first rest => first.isAnchored dir && rest.isAnchored dir
  | iterate body least _ _ => least != 0 && body.isAnchored dir
  | _ => false

/-- The automaton of an expression. One that is not anchored can skip bytes first. Reading forward,
the whole match is a group. -/
def automaton? (dir : Direction) (node : Node) : Option Tally :=
  let skip : Weigh :=
    if node.isAnchored dir then .join
    else .append .fork (.more (.ofAscii (.range 0 0xFF)))
  let whole : Weigh :=
    match dir with
    | .forward => (group 0 node).weigh dir .only
    | .backward => node.weigh dir .only
  (Weigh.append skip (.append whole .join)) .none

def fits (node : Node) : Bool :=
  (node.automaton? .forward).isSome && (node.automaton? .backward).isSome

end Node

end ModularLexer.Regex
