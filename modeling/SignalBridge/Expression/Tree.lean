import SignalBridge.Expression.Token

/-!
The tree of an expression. Tokens are placed one after the other into a stack of roots: a parenthesis
opens a root, a comma or semicolon opens a sequence, and any other operation goes into the root on top,
where it settles by precedence.
-/

namespace SignalBridge.Expression

/-- What a node of the tree does with its children. -/
inductive Operation
  | group
  | constant (c : Constant)
  | read (name : String)
  | write (name : String)
  | call (name : String)
  | negate
  | not
  | binary (b : Binary)
  | assign
  | updateAssign (b : Binary)
  | tuple
  | chain
deriving DecidableEq

def Binary.precedence : Binary → Nat
  | power => 120
  | arithmetic .multiply | arithmetic .divide | arithmetic .remainder => 100
  | arithmetic .add | arithmetic .subtract => 95
  | equal | unequal | greater | less | atLeast | atMost => 80
  | and => 75
  | or => 70

namespace Operation

def precedence : Operation → Nat
  | group | constant _ | read _ | write _ => 200
  | call _ => 190
  | negate | not => 110
  | binary b => b.precedence
  | assign | updateAssign _ => 50
  | tuple => 40
  | chain => 0

/-- The most children that a node takes; sequences take any number. -/
def maxChildren? : Operation → Option Nat
  | constant _ | read _ | write _ => some 0
  | group | call _ | negate | not => some 1
  | binary _ | assign | updateAssign _ => some 2
  | tuple | chain => none

/-- Operations of one precedence associate to the left, except assignments and calls. -/
def leftToRight : Operation → Bool
  | assign | call _ => false
  | _ => true

def isLeaf (o : Operation) : Bool :=
  o.maxChildren? == some 0

/-- An operation with its one operand on the right. -/
def isUnary (o : Operation) : Bool :=
  o.maxChildren? == some 1 && o != group

def isSequence (o : Operation) : Bool :=
  o == tuple || o == chain

end Operation

/-- A node with its children, the last one first. -/
inductive Tree
  | node (operation : Operation) (reversed : List Tree)

namespace Tree

def operation : Tree → Operation
  | node o _ => o

def reversed : Tree → List Tree
  | node _ cs => cs

def precedence (t : Tree) : Nat :=
  t.operation.precedence

def leaf (o : Operation) : Tree :=
  node o []

/-- The tree with one more child at the end. -/
def append (t child : Tree) : Tree :=
  node t.operation (child :: t.reversed)

/-- The operations `below` and `above` have one precedence and associate to the right. -/
def rightAssociate (below above : Operation) : Bool :=
  below.precedence == above.precedence && !below.leftToRight && !above.leftToRight

/-- Puts `n` in the place of the last child `last` of a full node `o`, and `last` under `n`. -/
def rotate (o : Operation) (last : Tree) (others : List Tree) (n : Tree) : Except Fault Tree :=
  if n.operation.isLeaf then .error .appendedToLeaf
  else if o = .group ∧ (!others.isEmpty ∨ n.operation = .group) then .error .missingOperator
  else if n.operation = .group ∧ (!n.reversed.isEmpty ∨ last.operation = .group) then
    .error .missingOperator
  else .ok (node o (n.append last :: others))

/-- Inserts the node `n` at the right edge of a tree: below every node that binds less tightly. A root
takes any node. -/
def insert (n : Tree) (asRoot : Bool) : Tree → Except Fault Tree
  | node o children =>
    let under (o : Operation) : Bool :=
      o.precedence < n.precedence || n.operation.isUnary || rightAssociate o n.operation
    if under o || asRoot then
      if o.isLeaf then .error .appendedToLeaf
      else if o.maxChildren? == some children.length then
        match children with
        | [] => .ok (node o [n])
        | last :: others =>
          if under last.operation then (insert n false last).map fun last => node o (last :: others)
          else rotate o last others n
      else .ok (node o (n :: children))
    else .error .precedenceViolation

/-! ### The stack of roots -/

/-- A node must not hold more children than its operation takes. -/
def overfull (t : Tree) : Bool :=
  t.operation.maxChildren?.any (· < t.reversed.length)

/-- Closes the sequences on top of the stack into the root below them. -/
def closeSequences : Tree → List Tree → Except Fault (List Tree)
  | root, stack =>
    if root.operation = .group then
      if root.overfull then .error .missingOperator else .ok (root :: stack)
    else match stack with
      | [] => .error .unmatchedClosing
      | below :: stack =>
        if root.operation.isSequence then closeSequences (below.append root) stack
        else if root.overfull then .error .missingOperator
        else .ok (root :: below :: stack)
termination_by _ stack => stack.length

def closeAll : List Tree → Except Fault (List Tree)
  | [] => .error .unmatchedClosing
  | root :: stack => closeSequences root stack

/-- Closes the roots that bind more tightly than `precedence` into the one below them. -/
def closeTo (precedence : Nat) : Tree → List Tree → Except Fault (Tree × List Tree)
  | _, [] => .error .unmatchedClosing
  | root, below :: stack =>
    if precedence < below.precedence then closeTo precedence (below.append root) stack
    else .ok (root, below :: stack)

/-- Places a comma or semicolon. -/
def placeSequence (n : Tree) (root : Tree) (stack : List Tree) : Except Fault (List Tree) :=
  if root.operation = n.operation then .ok (root.append (leaf .group) :: stack)
  else if root.operation = .group then
    .ok ((n.append root).append (leaf .group) :: leaf .group :: stack)
  else match decide (root.precedence < n.precedence), root.reversed with
    | true, last :: others =>
      .ok ((n.append last).append (leaf .group) :: node root.operation others :: stack)
    | _, _ => do
      let (root, stack) ← closeTo n.precedence root stack
      return n.append root :: stack

/-- Places a node on the stack. -/
def place (n : Tree) : List Tree → Except Fault (List Tree)
  | [] => .error .unmatchedClosing
  | root :: stack =>
    if n.operation.isSequence then placeSequence n root stack
    else if root.operation.isSequence then
      match root.reversed with
      | last :: others => do
        let last ← insert n true last
        return node root.operation (last :: others) :: stack
      | [] => .ok (root :: stack)
    else do
      let root ← insert n true root
      return root :: stack

/-! ### From tokens to a tree -/

/-- The token ends an operand, so that a minus after it subtracts. -/
def endsOperand : Token → Bool
  | .closing | .identifier _ | .constant _ => true
  | _ => false

/-- The token starts an operand, so that an identifier before it is called. -/
def startsOperand : Token → Bool
  | .opening | .identifier _ | .constant _ => true
  | _ => false

def isAssignment : Token → Bool
  | .assign | .updateAssign _ => true
  | _ => false

/-- The operation of a token other than a parenthesis, between the tokens around it. -/
def operationOf (previous next : Option Token) : Token → Operation
  | .constant c => .constant c
  | .identifier name =>
    if next.any isAssignment then .write name
    else if next.any startsOperand then .call name
    else .read name
  | .minus => if previous.any endsOperand then .binary (.arithmetic .subtract) else .negate
  | .not => .not
  | .binary b => .binary b
  | .assign => .assign
  | .updateAssign b => .updateAssign b
  | .comma => .tuple
  | .semicolon => .chain
  | .opening | .closing => .group

/-- Places tokens one after the other. -/
def placeTokens : Option Token → List Token → List Tree → Except Fault (List Tree)
  | _, [], stack => .ok stack
  | previous, t :: ts, stack =>
    match t with
    | .opening => placeTokens (some t) ts (leaf .group :: stack)
    | .closing =>
      if stack.length ≤ 1 then .error .unmatchedClosing
      else do
        match ← closeAll stack with
        | group :: stack => placeTokens (some t) ts (← place group stack)
        | [] => .error .unmatchedClosing
    | t => do
      placeTokens (some t) ts (← place (leaf (operationOf previous ts.head? t)) stack)

/-- The tree of a list of tokens. -/
def ofTokens (ts : List Token) : Except Fault Tree := do
  match ← closeAll (← placeTokens none ts [leaf .group]) with
  | [root] => .ok root
  | [] => .error .unmatchedClosing
  | _ => .error .unmatchedOpening

/-- The tree of an expression. -/
def parse (s : String) : Except Fault Tree :=
  (tokenize s).bind ofTokens

end Tree
end SignalBridge.Expression
