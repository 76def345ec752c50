import Triage.Field

/-! Names close to a mistyped one.

A field is suggested for a text that begins one of its names, and after those
fields, as long as there is room, for a text that stands inside one. -/
namespace Triage.Field

/-- Whether a text begins a name of a field. -/
def beginsWith (field : Field) (text : Text) : Bool := field.names.any (text.isPrefixOf ·)

/-- Whether a text stands inside a name of a field. -/
def mentions (field : Field) (text : Text) : Bool := field.names.any (Text.holds text)

/-- At most `max` fields with a name like a text in any case, in the order of the list of fields. -/
def suggestions (text : Text) (max : Nat) : List Field :=
  let query := text.lower
  if query.isEmpty then []
  else
    let close := all.filter (·.beginsWith query)
    let more :=
      if close.length < max then all.filter fun f => f.mentions query && !close.contains f else []
    (close ++ more).take max

end Triage.Field
