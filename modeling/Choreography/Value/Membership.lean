import Choreography.Error
import Choreography.Value.Agreement

/-! What is in a value: a name in a map, a part in a text, an item in a list. -/

namespace Choreography

/-- Whether a text is in a value. Numbers and what is null hold nothing that could be asked for. -/
def Value.holds (name : String) : Value → Except Error Bool
  | .map fields => .ok (Fields.has fields name)
  | .text s => .ok (Text.isWithin name s)
  | .list values => .ok (values.any (·.agrees (.text name)))
  | value => .error (.plain .type s!"argument of type '{value.typeName}' is not iterable")

end Choreography
