import SqlWright.Proofs.Closed.Changes
import SqlWright.Proofs.Closed.Merge

/-!
# Built statements are closed

A statement of any kind as the data of its making: how it starts and the calls that follow. If no
call passes SQL that the caller wrote, and none a time of day or a time with an offset, then
whatever is built leaves no quote and no parenthesis open and has no semicolon but the ones that end
it.
-/

namespace SqlWright

open Text

/-- A statement as it is made: its kind, the named table that it starts from if there is one, and
the chain of calls. -/
inductive Chain where
  | select (calls : List Select.Step)
  | insert (calls : List Insert.Step)
  | update (table : Option TableName) (calls : List Update.Step)
  | delete (table : Option TableName) (calls : List Delete.Step)
  /-- The named table comes with its alias. -/
  | merge (table : Option (TableName × String)) (calls : List Merge.Step)

namespace Chain

/-- The query after a chain of calls. -/
def selected (settings : Settings) (calls : List Select.Step) : Select :=
  (Select.new settings).run calls

/-- The INSERT statement after a chain of calls. -/
def inserted (settings : Settings) (calls : List Insert.Step) : Insert :=
  (Insert.new settings).run calls

/-- The UPDATE statement after a chain of calls. -/
def updated (settings : Settings) (table : Option TableName) (calls : List Update.Step) : Update :=
  ((table.map (Update.ofTable settings)).getD (.new settings)).run calls

/-- The DELETE statement after a chain of calls. -/
def deleted (settings : Settings) (table : Option TableName) (calls : List Delete.Step) : Delete :=
  ((table.map (Delete.ofTable settings)).getD (.new settings)).run calls

/-- The MERGE statement after a chain of calls. -/
def merged (settings : Settings) (table : Option (TableName × String)) (calls : List Merge.Step) :
    Merge :=
  ((table.map fun t => Merge.ofTable settings t.1 t.2).getD (.new settings)).run calls

/-- The finished text. -/
def build (settings : Settings) : Chain → Outcome String
  | .select calls => (selected settings calls).build
  | .insert calls => (inserted settings calls).build
  | .update table calls => (updated settings table calls).build
  | .delete table calls => (deleted settings table calls).build
  | .merge table calls => (merged settings table calls).build

/-- How many statements the finished text has: one for every row of an UPDATE, else one. -/
def count (settings : Settings) : Chain → Nat
  | .update table calls => (updated settings table calls).rows.length
  | .select _ | .insert _ | .delete _ _ | .merge _ _ => 1

/-- No call passes SQL that the caller wrote, a time of day or a time with an offset. -/
def IsSafe : Chain → Prop
  | .select calls => ∀ call ∈ calls, call.isSafe = true
  | .insert calls => ∀ call ∈ calls, call.IsSafe
  | .update _ calls => ∀ call ∈ calls, call.IsSafe
  | .delete _ calls => ∀ call ∈ calls, call.IsSafe
  | .merge _ calls => ∀ call ∈ calls, call.IsSafe

theorem updated_closed (settings : Settings) (table : Option TableName) {calls : List Update.Step}
    (h : ∀ call ∈ calls, call.IsSafe) : (updated settings table calls).IsClosed := by
  refine Update.IsClosed.run ?_ h
  cases table with
  | none => exact Update.new_closed settings
  | some name => exact Update.ofTable_closed settings name

theorem deleted_closed (settings : Settings) (table : Option TableName) {calls : List Delete.Step}
    (h : ∀ call ∈ calls, call.IsSafe) : (deleted settings table calls).IsClosed := by
  refine Delete.IsClosed.run ?_ h
  cases table with
  | none => exact Delete.new_closed settings
  | some name => exact Delete.ofTable_closed settings name

theorem merged_closed (settings : Settings) (table : Option (TableName × String))
    {calls : List Merge.Step} (h : ∀ call ∈ calls, call.IsSafe) :
    (merged settings table calls).IsClosed := by
  refine Merge.IsClosed.run ?_ h
  cases table with
  | none => exact Merge.new_closed settings
  | some t => exact Merge.ofTable_closed settings t.1 t.2

/-- **Built statements are lexically closed.** Whatever the tables, schemas, columns, members,
variants and aliases are called and whatever the values are: the text of a statement that is built
without SQL of the caller ends outside its quotes, closes every parenthesis and none too many, and
its semicolons outside the quotes end its statements, one at the end of each line and no others. -/
theorem build_terminated (settings : Settings) (chain : Chain) (h : chain.IsSafe) {text : String}
    (hb : chain.build settings = .ok text) : Terminated (chain.count settings) text := by
  cases chain with
  | select calls => exact (((Select.new_closed settings).run h).build hb).terminated
  | insert calls => exact (((Insert.new_closed settings).run h).build hb).terminated
  | update table calls => exact (updated_closed settings table h).build hb
  | delete table calls => exact ((deleted_closed settings table h).build hb).terminated
  | merge table calls => exact ((merged_closed settings table h).build hb).terminated

/-- Two rows of a table whose names look like the end of a statement. -/
theorem build_terminated_names :
    let city : MappedType := ⟨"City", "C]i;(", some "d'o",
      [(Column.plain "Id" "Id").asKey, Column.plain "Name" "N]'a"]⟩
    let chain : Chain := .update none
      [.target city, .addValues [("Id", .int 1), ("N]'a", .string "L'(")],
        .addValues [("Id", .int 2), ("N]'a", .null)]]
    let first := "UPDATE [t0] SET [N]]'a]='L''(' FROM [d'o].[C]]i;(] [t0] WHERE ([Id]=1);"
    let second := "UPDATE [t0] SET [N]]'a]=NULL FROM [d'o].[C]]i;(] [t0] WHERE ([Id]=2);"
    let text := first ++ "\n" ++ second
    chain.IsSafe ∧ chain.build .default = .ok text ∧ Terminated 2 text := by
  intro city chain first second text
  have hsafe : chain.IsSafe := by
    refine List.forall_mem_cons.2 ⟨trivial, List.forall_mem_cons.2 ⟨?_,
      List.forall_mem_singleton.2 ?_⟩⟩
    · show ∀ v ∈ [("Id", Value.int 1), ("N]'a", .string "L'(")], v.2.timeless = true
      decide
    · show ∀ v ∈ [("Id", Value.int 2), ("N]'a", .null)], v.2.timeless = true
      decide
  have hbuild : chain.build .default = .ok text := by
    set_option maxRecDepth 1000 in
    decide
  have hcount : chain.count .default = 2 := by decide
  exact ⟨hsafe, hbuild, hcount ▸ build_terminated .default chain hsafe hbuild⟩

end Chain

end SqlWright
