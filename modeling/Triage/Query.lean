import Triage.Field
import Triage.Value

/-! Queries.

A query is a filter, which an issue passes or not, and sort keys, of which the
first one counts most. -/
namespace Triage

/-- A condition on an issue. -/
inductive Filter where
  | and (left right : Filter)
  | or (left right : Filter)
  | not (child : Filter)
  /-- The field has the value. -/
  | equals (field : Field) (value : Value)
  /-- The field has one of the values. -/
  | oneOf (field : Field) (values : List Value)
  /-- The field lies between two values, both included. -/
  | range (field : Field) (min max : Value)
  /-- The text stands somewhere in the field, or in one of the searched fields if none is given. -/
  | contains (field : Option Field) (text : Text) (caseSensitive : Bool)
  /-- The value is one of the list that the field holds. -/
  | has (field : Field) (value : Value)
deriving DecidableEq

/-- The direction of a sort key. -/
inductive Direction where
  | asc
  | desc
deriving DecidableEq

/-- A field to sort by. -/
structure SortKey where
  field : Field
  direction : Direction
deriving DecidableEq

/-- A condition on issues and an order for those that meet it. Without a filter every issue is
kept, without sort keys the order of the issues. -/
structure Query where
  filter : Option Filter
  sort : List SortKey
deriving DecidableEq

/-- Whether a query keeps all issues as they are. -/
def Query.isEmpty (query : Query) : Bool := query.filter.isNone && query.sort.isEmpty

/-! ### Writing -/

namespace Filter

/-- Values in a row with commas between them. -/
def renderValues (values : List Value) : Text := Text.join [','] (values.map Value.render)

/-- A filter as a query, with parentheses around every `AND` and `OR`. -/
def render : Filter → Text
  | and left right => '(' :: render left ++ " AND ".toList ++ render right ++ [')']
  | or left right => '(' :: render left ++ " OR ".toList ++ render right ++ [')']
  | not child => "NOT ".toList ++ render child
  | equals field value => field.name ++ ':' :: value.render
  | oneOf field values => field.name ++ ':' :: renderValues values
  | range field min max => field.name ++ ':' :: min.render ++ "..".toList ++ max.render
  | contains (some field) text _ => field.name ++ ':' :: (Value.text text).render
  | contains none text _ => (Value.text text).render
  | has field value => field.name ++ ':' :: value.render

end Filter

/-- The word for a direction. -/
def Direction.word : Direction → Text
  | asc => "asc".toList
  | desc => "desc".toList

/-- A sort key with its direction. -/
def SortKey.render (key : SortKey) : Text := key.field.name ++ ' ' :: key.direction.word

namespace Query

/-- The sort clause of a query, nothing if it has no sort keys. -/
def renderSort (sort : List SortKey) : Text :=
  if sort.isEmpty then []
  else "sort by: ".toList ++ Text.join ", ".toList (sort.map SortKey.render)

/-- The canonical text of a query. -/
def render (query : Query) : Text :=
  match query.filter with
  | some filter =>
    if query.sort.isEmpty then filter.render
    else filter.render ++ ' ' :: renderSort query.sort
  | none => renderSort query.sort

end Query
end Triage
