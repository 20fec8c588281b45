import FluentTables.Migration.Blueprint
import FluentTables.Migration.Sql

/-!
# Migrations

A migration is read as blueprints if it holds any, and as SQL otherwise.
-/

namespace FluentTables

/-- The tables that a migration declares. -/
def migrationSchema (text : String) : Schema :=
  let s := Blueprint.schema text.toList
  if s.isEmpty then Sql.schema text.toList else s

end FluentTables
