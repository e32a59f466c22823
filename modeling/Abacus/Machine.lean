import Abacus.Fault

/-! Evaluation. The machine reads tokens from the left and keeps the operands that are not used yet
and, group by group, the operators that still wait. An operator first lets all waiting operators of
its own or a higher level be carried out, and a closing parenthesis all those of its group. -/
namespace Abacus

def Operator.apply (op : Operator) (left right : Int) (location : Option Location) :
    Except Fault Int :=
  match op.compute? left right with
  | some v => .ok v
  | none => .error (.divisionByZero location)

inductive Misapplication where
  | notOperator (kind : Token.Kind)
  | fault (f : Fault)
  deriving DecidableEq

def Misapplication.message : Misapplication → String
  | notOperator kind => "Not a binary operator: " ++ kind.name
  | fault f => f.message

def Token.Kind.apply (kind : Token.Kind) (left right : Int) (location : Option Location) :
    Except Misapplication Int :=
  match kind with
  | operator op => (op.apply left right location).mapError .fault
  | kind => .error (.notOperator kind)

structure Pending where
  operator : Operator
  token : Token
  deriving DecidableEq

/-- A group that is still open; `outer` waits until it is closed. -/
structure Group where
  opening : Token
  outer : List Pending
  deriving DecidableEq

/-- All lists have the newest or innermost item first. `pending` belongs to the innermost group, and
`reduced` records the operators carried out so far in their order. -/
structure Machine where
  values : List Int := []
  pending : List Pending := []
  groups : List Group := []
  reduced : Array Token := #[]

namespace Machine

/-- Carries out one operator on the two newest operands. They may be older than the operator's own
group: operands are not kept apart by groups. -/
def reduce (m : Machine) (p : Pending) : Except (Halt Machine) Machine :=
  match m.values with
  | right :: left :: rest =>
    match p.operator.apply left right p.token.location with
    | .ok v => .ok { m with values := v :: rest, reduced := m.reduced.push p.token }
    | .error f => .error ⟨f, m⟩
  | _ => .error ⟨.missingOperand p.token.lexeme p.token.location, m⟩

def reduceAll (m : Machine) (ps : List Pending) : Except (Halt Machine) Machine :=
  ps.foldlM reduce m

def push (m : Machine) (v : Int) : Machine := { m with values := v :: m.values }

def openGroup (m : Machine) (opening : Token) : Machine :=
  { m with pending := [], groups := ⟨opening, m.pending⟩ :: m.groups }

/-- The operators of the group are carried out first, also where no parenthesis is open. -/
def closeGroup (m : Machine) (closing : Token) : Except (Halt Machine) Machine := do
  let m ← m.reduceAll m.pending
  match m.groups with
  | [] => .error ⟨.unmatchedClosing closing.location, m⟩
  | g :: groups => .ok { m with pending := g.outer, groups }

/-- The operators that `op` yields to are carried out, and `op` waits in their place. -/
def await (m : Machine) (op : Operator) (token : Token) : Except (Halt Machine) Machine := do
  let due := m.pending.takeWhile (op.yieldsTo ·.operator)
  let rest := m.pending.dropWhile (op.yieldsTo ·.operator)
  let m ← m.reduceAll due
  .ok { m with pending := ⟨op, token⟩ :: rest }

/-- A number without a value counts as zero. -/
def step (m : Machine) (t : Token) : Except (Halt Machine) Machine :=
  match t.kind with
  | .number => .ok (m.push (t.value.getD 0))
  | .operator op => m.await op t
  | .leftParen => .ok (m.openGroup t)
  | .rightParen => m.closeGroup t

/-- At the end a single value must be left; `last` is the place of the last token. -/
def finish (m : Machine) (last : Option Location) : Except (Halt Machine) (Int × Machine) := do
  let m ← m.reduceAll m.pending
  match m.groups, m.values with
  | g :: _, _ => .error ⟨.unclosedOpening g.opening.location, m⟩
  | [], [v] => .ok (v, m)
  | [], values => .error ⟨.leftoverOperands values.length last, m⟩

def run (tokens : List Token) : Except (Halt Machine) (Int × Machine) := do
  (← tokens.foldlM step {}).finish (tokens.getLast?.bind (·.location))

end Machine

def evaluate (tokens : List Token) : Except Fault Int :=
  match Machine.run tokens with
  | .ok (v, _) => .ok v
  | .error h => .error h.fault

end Abacus
