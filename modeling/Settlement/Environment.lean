
namespace Settlement

abbrev Environment := String → Option String

def Environment.nonEmpty? (env : Environment) (name : String) : Option String :=
  (env name).filter (· != "")

end Settlement
