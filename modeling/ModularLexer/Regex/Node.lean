import ModularLexer.Regex.Syntax

/-!
Putting expressions together. Texts in a row become one text, sequences in a sequence and
alternatives among alternatives are laid flat, and alternatives that all begin with the same parts
share them. What is shared settles how much it reads before the alternatives after it are tried, so
sharing a repetition gives its preferences precedence over the order of the alternatives.
-/
namespace ModularLexer.Regex.Node

def nothing : Node := byte .empty

/-- One character of a set, or one byte; a set of one character is a text. -/
def ofSet (bytes : Bool) (s : CharSet) : Node :=
  match s.ranges with
  | [] => nothing
  | [(first, last)] =>
    if first == last then text [Char.ofNat first] else if bytes then byte s else char s
  | _ => if bytes then byte s else char s

/-- The parts of a sequence. An expression that is no sequence is its own only part. -/
def parts : Node → List Node
  | empty => []
  | append first rest => first :: rest.parts
  | node => [node]

def branches : Node → List Node
  | either first rest => first :: rest.branches
  | node => [node]

/-- The sequence of some parts, as they are. -/
def ofParts : List Node → Node
  | [] => empty
  | [node] => node
  | node :: nodes => append node (ofParts nodes)

def ofBranches : List Node → Node
  | [] => nothing
  | [node] => node
  | node :: nodes => either node (ofBranches nodes)

/-- Puts an expression before others, in one text with the next if both are texts. -/
def consText : Node → List Node → List Node
  | text a, text b :: nodes => text (a ++ b) :: nodes
  | node, nodes => node :: nodes

def sequence (nodes : List Node) : Node := ofParts ((nodes.flatMap parts).foldr consText [])

/-- The set of the characters that some texts of one character are. -/
def letters? (nodes : List Node) : Option CharSet :=
  nodes.foldr (fun node s? =>
    match node, s? with
    | text [c], some s => some ((CharSet.single c).union s)
    | _, _ => none) (some .empty)

def sets? (nodes : List Node) : Option CharSet :=
  nodes.foldr (fun node s? =>
    match node, s? with
    | char a, some s => some (a.union s)
    | byte a, some s => some (a.union s)
    | _, _ => none) (some .empty)

/-- The alternatives between flat branches, one set if they are letters only or sets only. -/
def ofFlatBranches (nodes : List Node) : Node :=
  match nodes with
  | [node] => node
  | nodes =>
    match letters? nodes, sets? nodes with
    | some s, _ => ofSet false s
    | none, some s => ofSet false s
    | none, none => ofBranches nodes

def commonFront : List Node → List Node → List Node
  | a :: as, b :: bs => if a = b then a :: commonFront as bs else []
  | _, _ => []

/-- The parts that all of some sequences begin with; none if one of them is no sequence. -/
def sharedFront (nodes : List Node) : List Node :=
  match nodes with
  | [] => []
  | node :: rest =>
    if nodes.all (fun node => 2 ≤ node.parts.length) then
      rest.foldl (fun front node => commonFront front node.parts) node.parts
    else []

def choice (nodes : List Node) : Node :=
  let nodes := nodes.flatMap branches
  match sharedFront nodes with
  | [] => ofFlatBranches nodes
  | front =>
    let ends := nodes.map fun node => sequence (node.parts.drop front.length)
    sequence (front ++ [ofFlatBranches (ends.flatMap branches)])

/-- Repeats an expression. One that reads nothing is repeated at most once, and no repetition at
all leaves the empty expression, without its groups. -/
def repeated (body : Node) (least : Nat) (most : Option Nat) (greedy : Bool) : Node :=
  let (least, most) :=
    if body.readsNothing then (min least 1, some ((most.map (min · 1)).getD 1)) else (least, most)
  match least, most with
  | 0, some 0 => empty
  | 1, some 1 => body
  | least, most => .iterate body least most greedy

end ModularLexer.Regex.Node
