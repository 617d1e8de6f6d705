
namespace Settlement

inductive Operation where
  | base
  | perPublicInput
  | g1Mul
  | pairing
  | inversion
  deriving DecidableEq

namespace Operation

def all : List Operation :=
  [.base, .perPublicInput, .g1Mul, .pairing, .inversion]

def name : Operation → String
  | .base => "base"
  | .perPublicInput => "per_public_input"
  | .g1Mul => "g1_mul"
  | .pairing => "pairing"
  | .inversion => "inversion"

def ofName? (s : String) : Option Operation :=
  all.find? (·.name == s)

end Operation

structure UnitSchedule where
  base : Int := 20000
  perPublicInput : Int := 1000
  g1Mul : Int := 6000
  pairing : Int := 45000
  inversion : Int := 800
  deriving DecidableEq

namespace UnitSchedule

def unit (s : UnitSchedule) : Operation → Int
  | .base => s.base
  | .perPublicInput => s.perPublicInput
  | .g1Mul => s.g1Mul
  | .pairing => s.pairing
  | .inversion => s.inversion

def set (s : UnitSchedule) (n : Int) : Operation → UnitSchedule
  | .base => { s with base := n }
  | .perPublicInput => { s with perPublicInput := n }
  | .g1Mul => { s with g1Mul := n }
  | .pairing => { s with pairing := n }
  | .inversion => { s with inversion := n }

def cost (s : UnitSchedule) (op : Operation) (count : Int) : Int :=
  s.unit op * count

end UnitSchedule

structure SizeLimits where
  maxPublicInputs : Int := 1024
  maxDomainSize : Int := 67108864
  deriving DecidableEq

structure Policy where
  schedule : UnitSchedule := {}
  budget : Option Int := some 2000000
  limits : SizeLimits := {}
  deriving DecidableEq

def Policy.standard : Policy := {}

end Settlement
