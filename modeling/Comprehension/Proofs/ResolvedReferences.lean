import Comprehension.Proofs.MappedReferences
import Comprehension.Proofs.PreparedReferences

/-!
Resolution of closed statements. Each table that comes into sight brings its rows along, so a
reference to it finds them. So resolution never misses the rows of a table, however often it goes
over what it has made.
-/
namespace Comprehension

namespace Sql

/-- The tables whose rows are there, and some others. -/
def Seen (free : Nat → Prop) (rows : Rows) (key : Nat) : Prop :=
  (rows.lookup key).isSome = true ∨ free key

theorem seen_cons (free : Nat → Prop) (rows : Rows) (table : Table) (row : Expr) :
    Seen free ((table.key, row) :: rows) = withTables [table] (Seen free rows) := by
  funext key
  by_cases same : key = table.key
  · simp [Seen, withTables, same]
  · simp [Seen, withTables, same, List.lookup_cons, beq_false_of_ne same]

/-- Rows that refer to no table. -/
def QuietRows (rows : Rows) : Prop :=
  ∀ key row, rows.lookup key = some row → (Node.expression row).Closed

theorem QuietRows.cons {rows : Rows} (h : QuietRows rows) {key : Nat} {row : Expr}
    (hr : (Node.expression row).Closed) : QuietRows ((key, row) :: rows) := by
  intro other found lookup
  by_cases same : other = key
  · subst same
    rw [List.lookup_cons_self] at lookup
    exact Option.some.inj lookup ▸ hr
  · rw [List.lookup_cons, beq_false_of_ne same] at lookup
    exact h other found lookup

/-- A computation that yields a closed expression among some rows. -/
def Joining.Closes (free : Nat → Prop) (rows : Rows) (before : List Table) (x : Joining Expr) :
    Prop :=
  Joining.Ends (Misses free) (Kept (Seen free rows) before)
    (fun e => (Node.expression e).ClosedIn (Seen free rows)) x

/-- A computation that yields a closed statement among some rows. -/
def Statement.Closes (free : Nat → Prop) (rows : Rows) (x : Supply Statement) : Prop :=
  Supply.Ends (Misses free) (fun s => (Node.statement s).ClosedIn (Seen free rows)) x

/-- Further passes over closed trees yield closed trees, and so does the mapping. -/
structure Reentry.Keeps (r : Resolver) (free : Nat → Prop) (again : Reentry) : Prop where
  contained : r.mapping.Contained
  expression : ∀ rows position e before, QuietRows rows →
    (Node.expression e).ClosedIn (Seen free rows) →
    Joining.Closes free rows before (again.expression rows position e)
  statement : ∀ rows s, QuietRows rows → (Node.statement s).ClosedIn (Seen free rows) →
    Statement.Closes free rows (again.statement rows s)

/-- What tables look like once their sources are resolved and their rows are in scope. -/
structure InSight (free : Nat → Prop) (rows : Rows) (tables tables' : List Table) (rows' : Rows) :
    Prop where
  keys : tables'.map Table.key = tables.map Table.key
  links : tableLinks tables' = tableLinks tables
  sources : SourcesClosedIn (Seen free rows) tables'
  quiet : QuietRows rows'
  seen : Seen free rows' = withTables tables (Seen free rows)

theorem InSight.cons {free : Nat → Prop} {rows rows' : Rows} {tables tables' : List Table}
    {table table' : Table} {row : Expr} (key : table'.key = table.key)
    (joins : table'.joins = table.joins)
    (source : ∀ s, table'.source.statement? = some s → (Node.statement s).ClosedIn (Seen free rows))
    (h : InSight free ((table.key, row) :: rows) tables tables' rows') :
    InSight free rows (table :: tables) (table' :: tables') rows' where
  keys := by rw [List.map_cons, List.map_cons, key, h.keys]
  links := by rw [tableLinks_cons, tableLinks_cons, joins, h.links]
  sources := by
    refine sourcesClosedIn_cons.mpr ⟨source, ?_⟩
    have rest := h.sources
    rw [seen_cons] at rest
    have same : withTables [table'] (Seen free rows) = withTables [table] (Seen free rows) := by
      funext other
      simp [withTables, key]
    rwa [same]
  quiet := h.quiet
  seen := by rw [h.seen, seen_cons, ← withTables_append, List.singleton_append]

theorem sourcesClosedIn_of_bare {visible : Nat → Prop} {tables tables' : List Table}
    (bare : tables'.map Table.bare = tables.map Table.bare) (h : SourcesClosedIn visible tables) :
    SourcesClosedIn visible tables' := by
  induction tables generalizing tables' visible with
  | nil =>
    obtain rfl := List.map_eq_nil_iff.mp bare
    exact h
  | cons table rest ih =>
    cases tables' with
    | nil => cases bare
    | cons table' rest' =>
      obtain ⟨first, others⟩ := List.cons.inj bare
      obtain ⟨key, source⟩ := Prod.mk.inj first
      obtain ⟨nested, later⟩ := sourcesClosedIn_cons.mp h
      refine sourcesClosedIn_cons.mpr ⟨?_, ih others ?_⟩
      · rwa [Table.source_eq_of_bare first]
      · have same : withTables [table'] visible = withTables [table] visible := by
          funext other
          simp [withTables, show table'.key = table.key from key]
        rwa [same]

section Resolution

variable {r : Resolver} {again : Reentry} {free : Nat → Prop}

theorem Resolver.fit_closes {rows : Rows} {before : List Table} {position : Position}
    {x : Joining Expr}
    (h : Joining.Closes free rows before x) : Joining.Closes free rows before (r.fit position x) :=
  h.bind fun _ closed => .lift (Expr.adapted_ends closed)

theorem Statement.checked_ends (s : Statement) :
    Outcome.Ends (Misses free) (fun t => t = s) s.checked := by
  cases found : s.checked with
  | ok t => exact .ok (checked_eq_ok found)
  | error e =>
    unfold checked at found
    split at found
    · cases found
    · split at found
      · cases found
      · cases found
        exact .error (by rintro _ ⟨⟩)

mutual

theorem Expr.resolve_closes (keeps : again.Keeps r free) (e : Expr) {rows : Rows}
    (quiet : QuietRows rows) (closed : (Node.expression e).ClosedIn (Seen free rows))
    (position : Position) (before : List Table) :
    Joining.Closes free rows before (e.resolve r again rows position) := by
  cases e with
  | column | literal | customText | entity | entityReference | entityConstant => exact .pure closed
  | constant value type =>
    exact .lift ((constant_ends value type).mono fun _ h => h.closedIn)
  | tableReference key type =>
    simp only [Expr.resolve]
    cases found : rows.lookup key with
    | some row => exact .pure (quiet key row found).closedIn
    | none =>
      refine .throw fun other same => ?_
      cases same
      have seen := closed key (.reference type)
      exact seen.resolve_left (by simp [found])
  | member source name type =>
    simp only [Expr.resolve]
    have owner := source.resolve_closes keeps quiet (closed.operand List.mem_cons_self)
      .value before
    refine (Resolver.fit_closes owner).bind fun source' closed' => ?_
    refine .bind (.lift (source'.memberOf_ends name closed')) fun found part => ?_
    exact keeps.expression rows position found before quiet part
  | navigation entity member type =>
    exact fun tables kept => (Entity.navigate_ends keeps.contained entity member before tables kept).mono
      fun _ h => ⟨h.1.closedIn, h.2⟩
  | call c => exact .throw nofun
  | binary op left right type =>
    simp only [Expr.resolve]
    have first := left.resolve_closes keeps quiet
      (closed.operand (by simp [Expr.operands, Expr.slots])) .value before
    have second := right.resolve_closes keeps quiet
      (closed.operand (by simp [Expr.operands, Expr.slots])) .value before
    refine (Resolver.fit_closes first).bind fun left hl => ?_
    refine (Resolver.fit_closes second).bind fun right hr => ?_
    refine .bind (.lift (identities_ends hl hr)) fun pair compared => ?_
    refine (Resolver.fit_closes (.pure compared.1)).bind fun left hl => ?_
    refine (Resolver.fit_closes (.pure compared.2)).bind fun right hr => ?_
    exact .pure (Expr.closedIn_binary hl hr)
  | like expression pattern =>
    simp only [Expr.resolve]
    have first := expression.resolve_closes keeps quiet
      (closed.operand (by simp [Expr.operands, Expr.slots])) .singleValue before
    have second := pattern.resolve_closes keeps quiet
      (closed.operand (by simp [Expr.operands, Expr.slots])) .singleValue before
    refine (Resolver.fit_closes first).bind fun expression he => ?_
    refine (Resolver.fit_closes second).bind fun pattern hp => .pure ?_
    exact Expr.closedIn_of_operands rfl (by simp [Expr.operands, Expr.slots, he, hp])
  | likeEscape value =>
    simp only [Expr.resolve]
    have operand := value.resolve_closes keeps quiet
      (closed.operand List.mem_cons_self) .singleValue before
    refine (Resolver.fit_closes operand).bind fun value hv => .pure ?_
    exact Expr.closedIn_of_operands rfl (by simp [Expr.operands, Expr.slots, hv])
  | logical op left right =>
    simp only [Expr.resolve]
    have first := left.resolve_closes keeps quiet
      (closed.operand (by simp [Expr.operands, Expr.slots])) .predicate before
    have second := right.resolve_closes keeps quiet
      (closed.operand (by simp [Expr.operands, Expr.slots])) .predicate before
    refine (Resolver.fit_closes first).bind fun left hl => ?_
    refine (Resolver.fit_closes second).bind fun right hr => .pure ?_
    exact Expr.closedIn_logical hl hr
  | not operand =>
    simp only [Expr.resolve]
    have negated := operand.resolve_closes keeps quiet
      (closed.operand List.mem_cons_self) .predicate before
    refine (Resolver.fit_closes negated).bind fun operand ho => .pure ?_
    exact Expr.closedIn_of_operands rfl (by simp [Expr.operands, Expr.slots, ho])
  | case branches otherwise type =>
    simp only [Expr.resolve]
    have tests := resolveBranches_closes keeps branches quiet (fun branch mem => by
      obtain ⟨test, value⟩ := Expr.branch_mem_operands mem otherwise type
      exact ⟨closed.operand test, closed.operand value⟩) before
    have last := resolveOption_closes keeps otherwise quiet (fun e he =>
      closed.operand (by simp [Expr.operands, Expr.slots, he])) .singleValue before
    exact tests.bind fun branches hb => last.bind fun otherwise ho =>
      .pure (Expr.closedIn_case hb ho)
  | function name args type isPredicate =>
    simp only [Expr.resolve]
    have below := resolveArgs_closes keeps args quiet (fun e mem =>
      closed.operand (by simpa [Expr.operands, Expr.slots] using mem)) before
    exact below.bind fun args ha => .pure (Expr.closedIn_function ha)
  | convert target expression type =>
    simp only [Expr.resolve]
    have operand := expression.resolve_closes keeps quiet
      (closed.operand List.mem_cons_self) .singleValue before
    refine (Resolver.fit_closes operand).bind fun expression he => .pure ?_
    exact Expr.closedIn_of_operands rfl (by simp [Expr.operands, Expr.slots, he])
  | aggregation function expression type =>
    simp only [Expr.resolve]
    have operand := expression.resolve_closes keeps quiet
      (closed.operand List.mem_cons_self) (if function = .count then .value else .singleValue) before
    refine (Resolver.fit_closes operand).bind fun expression he => .pure ?_
    exact Expr.closedIn_of_operands rfl (by simp [Expr.operands, Expr.slots, he])
  | rowNumber orderings =>
    simp only [Expr.resolve]
    have below := resolveOrderings_closes keeps orderings quiet (fun o mem =>
      closed.operand (Expr.ordering_mem_operands mem)) before
    refine below.bind fun orderings ho => .pure ?_
    exact Expr.closedIn_of_operands rfl (by simpa [Expr.operands, Expr.slots] using ho)
  | named n =>
    obtain ⟨name, e⟩ := n
    simp only [Expr.resolve]
    have inner := e.resolve_closes keeps quiet (closed.operand List.mem_cons_self)
      position before
    exact (Resolver.fit_closes inner).bind fun e he => .pure (Expr.closedIn_named he)
  | compound members =>
    simp only [Expr.resolve]
    have below := resolveMembers_closes keeps members quiet (fun n mem =>
      closed.operand (Expr.member_mem_operands mem)) before
    exact below.bind fun members hm => .pure (Expr.closedIn_compound hm)
  | subStatement s =>
    simp only [Expr.resolve]
    have inner := s.resolveIn_closes keeps quiet (Expr.closedIn_subStatement.mp closed)
    exact .bind (.liftSupply inner) fun s hs => .pure (Expr.closedIn_subStatement.mpr hs)
termination_by structural e

theorem resolveOption_closes (keeps : again.Keeps r free) (e : Option Expr) {rows : Rows}
    (quiet : QuietRows rows)
    (closed : ∀ e', e = some e' → (Node.expression e').ClosedIn (Seen free rows))
    (position : Position) (before : List Table) :
    Joining.Ends (Misses free) (Kept (Seen free rows) before)
      (fun found => ∀ e', found = some e' → (Node.expression e').ClosedIn (Seen free rows))
      (resolveOption r again rows position e) := by
  cases e with
  | none => exact .pure nofun
  | some e =>
    simp only [resolveOption]
    have inner := e.resolve_closes keeps quiet (closed e rfl) position before
    exact (Resolver.fit_closes inner).bind fun e he => .pure fun _ same => Option.some.inj same ▸ he
termination_by structural e

theorem resolveArgs_closes (keeps : again.Keeps r free) (args : List Expr) {rows : Rows}
    (quiet : QuietRows rows) (closed : ∀ e ∈ args, (Node.expression e).ClosedIn (Seen free rows))
    (before : List Table) :
    Joining.Ends (Misses free) (Kept (Seen free rows) before)
      (fun found => ∀ e ∈ found, (Node.expression e).ClosedIn (Seen free rows))
      (resolveArgs r again rows args) := by
  cases args with
  | nil => exact .pure nofun
  | cons e rest =>
    obtain ⟨here, below⟩ := List.forall_mem_cons.mp closed
    simp only [resolveArgs]
    have first := e.resolve_closes keeps quiet here .singleValue before
    refine (Resolver.fit_closes first).bind fun e he => ?_
    refine (resolveArgs_closes keeps rest quiet below before).bind fun rest hr => ?_
    exact .pure (List.forall_mem_cons.mpr ⟨he, hr⟩)
termination_by structural args

theorem resolveBranches_closes (keeps : again.Keeps r free) (branches : List (Expr × Expr))
    {rows : Rows} (quiet : QuietRows rows)
    (closed : ∀ branch ∈ branches, (Node.expression branch.1).ClosedIn (Seen free rows) ∧
      (Node.expression branch.2).ClosedIn (Seen free rows))
    (before : List Table) :
    Joining.Ends (Misses free) (Kept (Seen free rows) before)
      (fun found => ∀ branch ∈ found, (Node.expression branch.1).ClosedIn (Seen free rows) ∧
        (Node.expression branch.2).ClosedIn (Seen free rows))
      (resolveBranches r again rows branches) := by
  cases branches with
  | nil => exact .pure nofun
  | cons branch rest =>
    obtain ⟨test, value⟩ := branch
    obtain ⟨⟨inTest, inValue⟩, below⟩ := List.forall_mem_cons.mp closed
    simp only [resolveBranches]
    have first := test.resolve_closes keeps quiet inTest .predicate before
    have second := value.resolve_closes keeps quiet inValue .singleValue before
    refine (Resolver.fit_closes first).bind fun test ht => ?_
    refine (Resolver.fit_closes second).bind fun value hv => ?_
    refine (resolveBranches_closes keeps rest quiet below before).bind fun rest hr => ?_
    exact .pure (List.forall_mem_cons.mpr ⟨⟨ht, hv⟩, hr⟩)
termination_by structural branches

theorem resolveOrderings_closes (keeps : again.Keeps r free) (orderings : List Ordering)
    {rows : Rows} (quiet : QuietRows rows)
    (closed : ∀ o ∈ orderings, (Node.expression o.expression).ClosedIn (Seen free rows))
    (before : List Table) :
    Joining.Ends (Misses free) (Kept (Seen free rows) before)
      (fun found => ∀ o ∈ found, (Node.expression o.expression).ClosedIn (Seen free rows))
      (resolveOrderings r again rows orderings) := by
  cases orderings with
  | nil => exact .pure nofun
  | cons ordering rest =>
    obtain ⟨e, direction⟩ := ordering
    obtain ⟨here, below⟩ := List.forall_mem_cons.mp closed
    simp only [resolveOrderings]
    have first := e.resolve_closes keeps quiet here .singleValue before
    refine (Resolver.fit_closes first).bind fun e he => ?_
    refine (resolveOrderings_closes keeps rest quiet below before).bind fun rest hr => ?_
    exact .pure (List.forall_mem_cons.mpr ⟨he, hr⟩)
termination_by structural orderings

theorem resolveMembers_closes (keeps : again.Keeps r free) (members : List Named) {rows : Rows}
    (quiet : QuietRows rows)
    (closed : ∀ n ∈ members, (Node.expression n.expression).ClosedIn (Seen free rows))
    (before : List Table) :
    Joining.Ends (Misses free) (Kept (Seen free rows) before)
      (fun found => ∀ n ∈ found, (Node.expression n.expression).ClosedIn (Seen free rows))
      (resolveMembers r again rows members) := by
  cases members with
  | nil => exact .pure nofun
  | cons n rest =>
    obtain ⟨name, e⟩ := n
    obtain ⟨here, below⟩ := List.forall_mem_cons.mp closed
    simp only [resolveMembers]
    have first := e.resolve_closes keeps quiet here .value before
    refine (Resolver.fit_closes first).bind fun e he => ?_
    refine (resolveMembers_closes keeps rest quiet below before).bind fun rest hr => ?_
    exact .pure (List.forall_mem_cons.mpr ⟨he, hr⟩)
termination_by structural members

theorem Source.resolve_closes (keeps : again.Keeps r free) (source : Source) {rows : Rows}
    (quiet : QuietRows rows)
    (closed : ∀ s, source.statement? = some s → (Node.statement s).ClosedIn (Seen free rows)) :
    Supply.Ends (Misses free)
      (fun found => ∀ s, found.statement? = some s → (Node.statement s).ClosedIn (Seen free rows))
      (source.resolve r again rows) := by
  cases source with
  | unresolved itemType =>
    simp only [Source.resolve]
    refine (source_ends keeps.contained itemType).bind fun found mapped => ?_
    cases found with
    | statement tableAlias s =>
      refine (keeps.statement rows s quiet (mapped s rfl).closedIn).bind fun s hs => .pure ?_
      exact fun _ same => Option.some.inj same ▸ hs
    | unresolved itemType => exact .pure nofun
    | table itemType tableName tableAlias => exact .pure nofun
  | table itemType tableName tableAlias => exact .pure nofun
  | statement tableAlias s =>
    simp only [Source.resolve]
    refine (s.resolveIn_closes keeps quiet (closed s rfl)).bind fun s hs => .pure ?_
    exact fun _ same => Option.some.inj same ▸ hs
termination_by structural source

theorem resolveTables_closes (keeps : again.Keeps r free) (tables : List Table) {rows : Rows}
    (quiet : QuietRows rows) (closed : SourcesClosedIn (Seen free rows) tables) :
    Supply.Ends (Misses free) (fun found => InSight free rows tables found.1 found.2)
      (resolveTables r again rows tables) := by
  cases tables with
  | nil => exact .pure ⟨rfl, rfl, sourcesClosedIn_nil, quiet, withTables_nil.symm⟩
  | cons table rest =>
    obtain ⟨key, source, kind, joins⟩ := table
    obtain ⟨here, below⟩ := sourcesClosedIn_cons.mp closed
    simp only [resolveTables]
    refine (source.resolve_closes keeps quiet here).bind fun source' hs => ?_
    refine (Supply.Ends.lift (source'.row_ends .sourceLeftUnresolved fun _ _ => nofun)).bind
      fun row hr => ?_
    have later := resolveTables_closes keeps rest (quiet.cons hr) (by rwa [seen_cons])
    refine later.bind fun found sight => ?_
    obtain ⟨rest', rows'⟩ := found
    exact .pure (InSight.cons rfl rfl hs sight)
termination_by structural tables

/-- A closed statement stays closed, and the rows of its tables are there when its clauses are
resolved. -/
theorem Statement.resolveIn_closes (keeps : again.Keeps r free) (s : Statement) {rows : Rows}
    (quiet : QuietRows rows) (closed : (Node.statement s).ClosedIn (Seen free rows)) :
    Statement.Closes free rows (s.resolveIn r again rows) := by
  obtain ⟨projection, tables, condition, grouping, orderings, top, isDistinct, rowNumber, rowOffset,
    shape⟩ := s
  obtain ⟨each, links, sources⟩ := Statement.closedIn_iff.mp closed
  simp only [Statement.resolveIn]
  refine (resolveTables_closes keeps tables quiet sources).bind fun found sight => ?_
  obtain ⟨tables₁, rows₁⟩ := found
  rw [← sight.seen] at each links
  have linked : LinksClosedIn (Seen free rows₁) tables₁ := by rwa [LinksClosedIn, sight.links]
  refine (resolveTableJoins_ends keeps.contained linked).bind fun tables₂ kept => ?_
  refine (Joining.Ends.run (S := Kept (Seen free rows₁) tables₁) (Q := fun s =>
    s.Each (fun e => (Node.expression e).ClosedIn (Seen free rows₁)) ∧
      Kept (Seen free rows₁) tables₁ s.tables) ?_ kept).bind fun found resolved => ?_
  · have selected := projection.resolve_closes keeps sight.quiet each.projection .value
      tables₁
    have admitted := resolveOption_closes keeps condition sight.quiet each.condition
      .predicate tables₁
    have grouped := resolveOption_closes keeps grouping sight.quiet each.grouping .value
      tables₁
    have ordered := resolveOrderings_closes keeps orderings sight.quiet each.orderings
      tables₁
    have limited := resolveOption_closes keeps top sight.quiet each.top .singleValue tables₁
    have numbered := resolveOption_closes keeps rowNumber sight.quiet each.rowNumber
      .singleValue tables₁
    have skipped := resolveOption_closes keeps rowOffset sight.quiet each.rowOffset
      .singleValue tables₁
    refine (Resolver.fit_closes selected).bind fun _ hp => ?_
    refine admitted.bind fun _ hc => grouped.bind fun _ hg => ordered.bind fun _ ho => ?_
    refine limited.bind fun _ ht => numbered.bind fun _ hn => skipped.bind fun _ hs => ?_
    exact .bind .get fun _ kept => .pure ⟨⟨hp, hc, hg, ho, ht, hn, hs⟩, kept⟩
  · obtain ⟨s, tables₃⟩ := found
    obtain ⟨⟨each, kept⟩, -⟩ := resolved
    refine .lift (s.checked_ends.mono fun t same => ?_)
    obtain rfl := same
    have keys : t.tables.map Table.key = tables.map Table.key := by
      have bare := congrArg (List.map Prod.fst) kept.bare
      rw [List.map_map, List.map_map] at bare
      exact bare.trans sight.keys
    have around : withTables t.tables (Seen free rows) = Seen free rows₁ := by
      rw [sight.seen]
      funext key
      rw [withTables, withTables, keys]
    refine Statement.closedIn_iff.mpr ?_
    rw [around]
    exact ⟨each, kept.links, sourcesClosedIn_of_bare kept.bare sight.sources⟩
termination_by structural s

end

theorem Reentry.upTo_keeps (contained : r.mapping.Contained) (depth : Nat) :
    (upTo r depth).Keeps r free := by
  induction depth with
  | zero => exact ⟨contained, fun _ _ _ _ _ _ => .throw nofun, fun _ _ _ _ => .throw nofun⟩
  | succ depth ih =>
    refine ⟨contained, ?_, ?_⟩
    · intro rows position e before quiet closed
      exact e.resolve_closes ih quiet closed position before
    · intro rows s quiet closed
      exact s.resolveIn_closes ih quiet closed

/-- Resolving a statement misses no other rows than those of tables that it refers to. -/
theorem Statement.resolve_ends {mapping : Mapping} (contained : mapping.Contained) (native : Bool)
    {s : Statement} (closed : (Node.statement s).ClosedIn free) :
    Supply.Ends (Misses free) (fun t => (Node.statement t).ClosedIn free)
      (s.resolve mapping native) := by
  have seen : Seen free [] = free := by
    funext key
    simp [Seen]
  have keeps : (Reentry.upTo ⟨mapping, native⟩ (s.memberCount + sourcePasses mapping)).Keeps
      ⟨mapping, native⟩ free := Reentry.upTo_keeps contained _
  have quiet : QuietRows [] := fun _ _ found => nomatch found
  have run : Closes free [] (s.resolve mapping native) :=
    s.resolveIn_closes keeps quiet (by rwa [seen])
  rwa [Closes, seen] at run

end Resolution

end Sql

namespace Query.Model

open Method (Registry)
open Method.Registry (defaults)
open Sql (Node Statement)

variable {registry : Registry} {m : Model} {s : Statement} {f₀ f : Fresh}

theorem closedIn_of_prepare (pages : m.pagesOutside = true)
    (h : m.prepare registry f₀ = .ok (s, f)) : (Node.statement s).ClosedIn registry.Invents :=
  m.closedIn_of_prepareIn Scope.closedIn_nil pages h

-- A query that skips as many rows as one of its own rows says: the table has become a source, and
-- the number stands outside of it.
example :
    let cook : Expr := .item "c" (.entity "Cook")
    let m : Model :=
      { main := .table "c" "Cook", clauses := [], yield := .select cook,
        operators := [.skip (.member cook "ID" .int32)] }
    m.pagesOutside = false ∧ (m.prepare defaults {}).toOption.any (fun result =>
      Outcome.error? (result.1.resolve (Mapping.ofSchema .restaurant) false result.2) =
        some (.contract (.tableNotInScope 0))) = true := by
  decide +kernel

end Query.Model

end Comprehension
