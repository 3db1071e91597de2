import Comprehension.Proofs.Paging

/-!
What each result operator makes of a statement. An operator changes clauses of the statement, or of
one that selects all of its rows; skipped rows always put the statement into a page of its own.
-/
namespace Comprehension.Sql.Statement

variable {s t : Statement} {f f' : Fresh}

/-- A statement stays as it is, or becomes the source of another one. -/
inductive Nests : Bool → Statement → Statement → Prop where
  | stays (s : Statement) : Nests false s s
  | around (s : Statement) (key : Nat) (tableAlias : String) :
    Nests true s (around key tableAlias s.asSource)

theorem nested_around {reference : Expr} (h : s.nested f = .ok ((t, reference), f')) :
    ∃ key tableAlias, t = around key tableAlias s.asSource ∧
      reference = .tableReference key s.asSource.projection.type := by
  obtain ⟨checked, f₁, hc, drawn⟩ := Supply.bind_eq_ok.mp h
  obtain ⟨same, rfl⟩ := Supply.lift_eq_ok.mp hc
  obtain rfl := checked_eq_ok same
  obtain ⟨key, f₂, -, named⟩ := Supply.bind_eq_ok.mp drawn
  obtain ⟨tableAlias, f₃, -, built⟩ := Supply.bind_eq_ok.mp named
  obtain ⟨result, rfl⟩ := Supply.pure_eq_ok.mp built
  obtain ⟨rfl, rfl⟩ := Prod.mk.inj result
  exact ⟨key, tableAlias, rfl, rfl⟩

theorem nests_of_nestedIf {condition : Bool} (h : s.nestedIf condition f = .ok (t, f')) :
    Nests condition s t := by
  cases condition with
  | false =>
    obtain ⟨rfl, rfl⟩ := Supply.pure_eq_ok.mp h
    exact .stays s
  | true =>
    obtain ⟨⟨outer, reference⟩, f₁, hn, built⟩ := Supply.bind_eq_ok.mp h
    obtain ⟨rfl, rfl⟩ := Supply.pure_eq_ok.mp built
    obtain ⟨key, tableAlias, rfl, -⟩ := nested_around hn
    exact .around s key tableAlias

/-- A computed value has a type of its own, or that of what was selected. -/
theorem aggregate_eq_ok {function : Aggregate} {type? : Option ValueType}
    (h : s.aggregate function type? f = .ok (t, f')) :
    ∃ u, Nests s.limitsRows s u ∧
      let type := type?.getD u.projection.type
      t = { u with projection := .aggregation function u.projection type, orderings := [],
                   shape := .scalar type } := by
  obtain ⟨u, f₁, hn, built⟩ := Supply.bind_eq_ok.mp h
  obtain ⟨rfl, rfl⟩ := Supply.pure_eq_ok.mp built
  exact ⟨u, nests_of_nestedIf hn, rfl⟩

theorem aggregate_cases {function : Aggregate} {type? : Option ValueType}
    (h : s.aggregate function type? f = .ok (t, f')) :
    ∃ u type, Nests s.limitsRows s u ∧
      t = { u with projection := .aggregation function u.projection type, orderings := [],
                   shape := .scalar type } := by
  obtain ⟨u, nests, rfl⟩ := aggregate_eq_ok h
  exact ⟨u, _, nests, rfl⟩

/-- Behind skipped rows, a bound on the row number is one more condition. -/
theorem take_cases {count : Expr} (h : s.take count f = .ok (t, f')) :
    (∃ rowNumber offset, s.rowNumber = some rowNumber ∧ s.rowOffset = some offset ∧
      t = s.withCondition (.binaryOf .lessThanOrEqual rowNumber (.add offset count))) ∨
    (s.rowNumber = none ∨ s.rowOffset = none) ∧
      ∃ u, Nests s.top.isSome s u ∧ t = { u with top := some count } := by
  have limited {u : Statement} {f₁ : Fresh} (hn : s.nestedIf s.top.isSome f = .ok (u, f₁))
      (built : (pure { u with top := some count } : Supply Statement) f₁ = .ok (t, f')) :
      ∃ u, Nests s.top.isSome s u ∧ t = { u with top := some count } :=
    ⟨u, nests_of_nestedIf hn, (Supply.pure_eq_ok.mp built).1.symm⟩
  unfold take at h
  cases number : s.rowNumber with
  | none =>
    rw [number] at h
    obtain ⟨u, f₁, hn, built⟩ := Supply.bind_eq_ok.mp h
    exact .inr ⟨.inl rfl, limited hn built⟩
  | some rowNumber =>
    cases start : s.rowOffset with
    | none =>
      rw [number, start] at h
      obtain ⟨u, f₁, hn, built⟩ := Supply.bind_eq_ok.mp h
      exact .inr ⟨.inr rfl, limited hn built⟩
    | some offset =>
      rw [number, start] at h
      obtain ⟨rfl, rfl⟩ := Supply.pure_eq_ok.mp h
      exact .inl ⟨rowNumber, offset, rfl, rfl, rfl⟩

theorem skip_cases {offset : Expr} (h : s.skip offset f = .ok (t, f')) :
    ∃ u key tableAlias, Nests s.limitsRows s u ∧
      let rowType := u.numbered.asSource.projection.type
      t = page key tableAlias u.numbered.asSource rowType u.projection.type offset
        (.binaryOf .greaterThan (numberOf key rowType) offset) := by
  obtain ⟨u, f₁, hn, drawn⟩ := Supply.bind_eq_ok.mp h
  obtain ⟨⟨outer, reference⟩, f₂, numbered, built⟩ := Supply.bind_eq_ok.mp drawn
  obtain ⟨rfl, rfl⟩ := Supply.pure_eq_ok.mp built
  obtain ⟨key, tableAlias, rfl, rfl⟩ := nested_around numbered
  exact ⟨u, key, tableAlias, nests_of_nestedIf hn, rfl⟩

theorem singleRow_cases {rows : Int} {orDefault : Bool}
    (h : s.singleRow rows orDefault f = .ok (t, f')) :
    ∃ u, Nests s.top.isSome s u ∧
      t = { u with top := some (.int rows), shape := .singleValue u.projection.type orDefault } := by
  obtain ⟨u, f₁, hn, built⟩ := Supply.bind_eq_ok.mp h
  obtain ⟨rfl, rfl⟩ := Supply.pure_eq_ok.mp built
  exact ⟨u, nests_of_nestedIf hn, rfl⟩

theorem distinct_cases (h : s.distinct f = .ok (t, f')) :
    ∃ u, Nests (s.top.isSome || s.rowNumber.isSome) s u ∧ t = { u with isDistinct := true } := by
  obtain ⟨u, f₁, hn, built⟩ := Supply.bind_eq_ok.mp h
  obtain ⟨rfl, rfl⟩ := Supply.pure_eq_ok.mp built
  exact ⟨u, nests_of_nestedIf hn, rfl⟩

end Comprehension.Sql.Statement
