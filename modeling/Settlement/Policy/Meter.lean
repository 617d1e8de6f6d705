import Settlement.Number.Literal
import Settlement.Policy.Schedule

namespace Settlement

inductive Exhaustion where
  | budget (used limit : Int) (op : Operation)
  | publicInputs (count limit : Int)
  | domainSize (size limit : Int)
  deriving DecidableEq

def Exhaustion.message : Exhaustion → String
  | .budget used limit op =>
    s!"verification budget exhausted ({used} > {limit} units at " ++ op.name ++ ")"
  | .publicInputs count limit => s!"too many public inputs: {count} > {limit}"
  | .domainSize size limit => s!"domain too large: {size} > {limit}"

def Exhaustion.isWritable : Exhaustion → Bool
  | .budget used limit _ => Integer.isWritable used && Integer.isWritable limit
  | .publicInputs count limit => Integer.isWritable count && Integer.isWritable limit
  | .domainSize size limit => Integer.isWritable size && Integer.isWritable limit

structure Meter where
  policy : Policy
  used : Int := 0
  counts : List (Operation × Int) := []
  deriving DecidableEq

namespace Meter

def ofPolicy (p : Policy) : Meter := { policy := p }

def count? (m : Meter) (op : Operation) : Option Int :=
  m.counts.lookup op

def remaining (m : Meter) : Option Int :=
  m.policy.budget.map fun b => max 0 (b - m.used)

def record (m : Meter) (op : Operation) (count : Int) : Meter :=
  { m with
    used := m.used + m.policy.schedule.cost op count
    counts :=
      if (m.count? op).isSome then
        m.counts.map fun e => if e.1 = op then (op, e.2 + count) else e
      else m.counts ++ [(op, count)] }

def overrun (m : Meter) (op : Operation) : Option Exhaustion :=
  match m.policy.budget with
  | none => none
  | some b => if m.used > b then some (.budget m.used b op) else none

def charge (m : Meter) (op : Operation) (count : Int) : Except Exhaustion Unit × Meter :=
  let m := m.record op count
  match m.overrun op with
  | none => (.ok (), m)
  | some e => (.error e, m)

def checkLimits (m : Meter) (publicInputs domainSize : Int) : Except Exhaustion Unit :=
  let limits := m.policy.limits
  if publicInputs > limits.maxPublicInputs then .error (.publicInputs publicInputs limits.maxPublicInputs)
  else if domainSize > limits.maxDomainSize then .error (.domainSize domainSize limits.maxDomainSize)
  else .ok ()

inductive NamedError where
  | unknown (name : String)
  -- a name that a schedule holds for itself and that has no price
  | noPrice
  | text (text : String)
  | exhausted (e : Exhaustion)
  | unwritable
  deriving DecidableEq

def NamedError.message : NamedError → Option String
  | .unknown name => some ("unknown metered operation " ++ Text.quoted name)
  | .noPrice => none
  | .text t => some (Integer.LiteralError.invalid 10 (Text.quoted t)).message
  | .exhausted e => some e.message
  | .unwritable => some Integer.unwritable

/-- The names that a schedule holds for itself, but for those of text. The first is the price of a whole charge,
the others are what every record has. -/
def reservedNames : List String :=
  ["cost", "__annotations__", "__class__", "__dataclass_fields__", "__dataclass_params__", "__delattr__", "__dict__",
   "__dir__", "__eq__", "__format__", "__ge__", "__getattribute__", "__getstate__", "__gt__", "__hash__", "__init__",
   "__init_subclass__", "__le__", "__lt__", "__match_args__", "__ne__", "__new__", "__reduce__", "__reduce_ex__",
   "__repr__", "__setattr__", "__sizeof__", "__str__", "__subclasshook__", "__weakref__"]

def scheduleText : String :=
  "\n    Cost per primitive. Final cost of a verification is:\n        base\n" ++
  "      + per_public_input * num_public_inputs\n      + g1_mul    * scalar multiplications\n" ++
  "      + pairing   * pairings\n      + inversion * field inversions\n    "

def textNames : List (String × String) :=
  [("__doc__", scheduleText), ("__module__", "zk.integration.policy")]

def NamedError.ofName (name : String) : NamedError :=
  match textNames.lookup name with
  | some t => .text t
  | none => if reservedNames.contains name then .noPrice else .unknown name

def NamedError.ofExhaustion (e : Exhaustion) : NamedError :=
  if e.isWritable then .exhausted e else .unwritable

def chargeNamed (m : Meter) (name : String) (count : Int) : Except NamedError Unit × Meter :=
  match Operation.ofName? name with
  | some op =>
    let (result, m) := m.charge op count
    (result.mapError .ofExhaustion, m)
  | none => (.error (.ofName name), m)

end Meter

end Settlement
