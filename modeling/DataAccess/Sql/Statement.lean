import DataAccess.Sql.Clause

/-!
Statements on a single table. Names of tables and columns are written as given; values are
always bound, those of a column list before those of the conditions.
-/
namespace DataAccess.Sql

abbrev Columns := List (String × Value)

inductive Statement where
  | select (table : String) (conditions : ConditionSet) (order : List OrderTerm)
  | count (table : String) (conditions : ConditionSet)
  | insert (table : String) (columns : Columns)
  | update (table : String) (columns : Columns) (conditions : ConditionSet)
  | delete (table : String) (conditions : ConditionSet)

def totalColumn : String := "total"

def Direction.word : Direction → String
  | .asc => "asc"
  | .desc => "desc"

def orderClause (order : List OrderTerm) : String :=
  if order.isEmpty then ""
  else " order by " ++
    String.intercalate ", " (order.map fun t => t.column ++ " " ++ t.direction.word)

def Columns.names (columns : Columns) : List String := columns.map Prod.fst

def Columns.values (columns : Columns) : List Value := columns.map Prod.snd

namespace Statement

def bind : Statement → Except Error Bound
  | .select table conditions order => do
    let f ← conditions.whereClause
    Bound.make ("select * from " ++ table ++ f.text ++ orderClause order) f.params
  | .count table conditions =>
    bindConditions ("select count(0) as " ++ totalColumn ++ " from " ++ table) conditions
  | .insert table columns =>
    if columns.isEmpty then .error (.mapping (.nothingToInsert table))
    else Bound.make ("insert into " ++ table ++ " (" ++ String.intercalate ", " columns.names ++
      ") values (" ++ marks columns.values ++ ")") columns.values
  | .update table columns conditions =>
    if columns.isEmpty then .error (.mapping (.nothingToUpdate table))
    else do
      let assignments := columns.names.map (· ++ " = ?")
      let f ← conditions.whereClause
      Bound.make ("update " ++ table ++ " set " ++ String.intercalate ", " assignments ++ f.text)
        (columns.values ++ f.params)
  | .delete table conditions => bindConditions ("delete from " ++ table) conditions

end Statement
end DataAccess.Sql
