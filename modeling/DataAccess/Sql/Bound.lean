import DataAccess.Error
import DataAccess.Sql.Placeholder

/-!
Bound SQL: text together with one value for each of its placeholders.
-/
namespace DataAccess.Sql

structure Bound where
  sql : String
  params : List Value
  count_eq : countPlaceholders sql = params.length

/-- Pairs text with values, refusing a different number of placeholders and values. -/
def Bound.make (sql : String) (params : List Value) : Except Error Bound :=
  if h : countPlaceholders sql = params.length then .ok ⟨sql, params, h⟩
  else .error (.parameterCountMismatch (countPlaceholders sql) params.length)

end DataAccess.Sql
