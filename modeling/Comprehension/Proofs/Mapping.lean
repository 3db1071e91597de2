import Comprehension.Proofs.Outcome

/-!
What a schema hands out when it succeeds: tables and columns under the alias it is asked for, and
one alias for each source and each join.
-/
namespace Comprehension

open Outcome (bind_eq_ok pure_eq_ok)

theorem Supply.freshAlias_eq_ok {stem : String} {f : Fresh} {r : String × Fresh} :
    freshAlias stem f = .ok r ↔ f.named stem = r := by
  exact Outcome.pure_eq_ok

theorem Supply.freshKey_eq_ok {f : Fresh} {r : Nat × Fresh} : freshKey f = .ok r ↔ f.key = r := by
  exact Outcome.pure_eq_ok

theorem TypeMapping.column_eq_ok {t : TypeMapping} {itemType member tableAlias : String}
    {c : Sql.Column} (h : t.column itemType member tableAlias = .ok c) :
    ∃ column, t.column? member = some column ∧ c = t.ownedColumn tableAlias column := by
  unfold column at h
  split at h
  · rename_i column found
    exact ⟨column, found, (Except.ok.inj h).symm⟩
  · cases h

namespace Schema

variable {s : Schema}

theorem entity_eq_ok {itemType tableAlias : String} {e : Sql.Entity}
    (h : s.entity itemType tableAlias = .ok e) :
    ∃ mapping key, s.typeMapping itemType = .ok mapping ∧
      mapping.column? mapping.primaryKey = some key ∧
      e = ⟨itemType, tableAlias, none, mapping.ownedColumn tableAlias key,
        mapping.columns.map (mapping.ownedColumn tableAlias)⟩ := by
  obtain ⟨mapping, hm, h⟩ := bind_eq_ok.mp h
  obtain ⟨primaryKey, hk, h⟩ := bind_eq_ok.mp h
  obtain ⟨key, hkey, rfl⟩ := TypeMapping.column_eq_ok hk
  exact ⟨mapping, key, hm, hkey, (pure_eq_ok.mp h).symm⟩

/-- A member is a step to a related entity or a column of the same table. -/
theorem member_eq_ok {e : Sql.Entity} {name : String} {found : Sql.Expr}
    (h : s.member e name = .ok found) :
    (∃ type, found = .navigation e name type) ∨
      ∃ c : Sql.Column, found = .column c ∧ c.owner = e.tableAlias := by
  obtain ⟨mapping, -, h⟩ := bind_eq_ok.mp h
  split at h
  · exact .inl ⟨_, (pure_eq_ok.mp h).symm⟩
  · obtain ⟨c, hc, h⟩ := bind_eq_ok.mp h
    obtain ⟨column, -, rfl⟩ := TypeMapping.column_eq_ok hc
    exact .inr ⟨_, (pure_eq_ok.mp h).symm, rfl⟩

/-- A domain object gets the key its type is stored under; another value stays what it is. -/
theorem constant_eq_ok {value : Value} {type : ValueType} {e : Sql.Expr}
    (h : s.constant value type = .ok e) :
    (∃ typeName id keyType, value = .entity typeName id ∧
        e = .entityConstant type value (.constant id keyType)) ∨
      (∀ typeName id, value ≠ .entity typeName id) ∧ e = .constant value type := by
  cases value with
  | entity typeName id =>
    obtain ⟨mapping, -, h⟩ := bind_eq_ok.mp h
    split at h
    · exact .inl ⟨typeName, id, _, rfl, (pure_eq_ok.mp h).symm⟩
    · cases h
  | _ => exact .inr ⟨by simp, (Except.ok.inj h).symm⟩

theorem constant_of_ne {value : Value} {type : ValueType}
    (h : ∀ typeName id, value ≠ .entity typeName id) :
    s.constant value type = .ok (.constant value type) := by
  cases value with
  | entity typeName id => exact absurd rfl (h typeName id)
  | _ => rfl

theorem Path.join_eq_ok {p : Path} {e : Sql.Entity} {tableAlias : String} {t : JoinTarget}
    (h : p.join e tableAlias = .ok t) :
    ∃ left right : Sql.Column, left.owner = e.tableAlias ∧ right.owner = tableAlias ∧
      t = ⟨.table p.relation.target p.target.table tableAlias, .column left, .column right⟩ := by
  obtain ⟨left, hl, h⟩ := bind_eq_ok.mp h
  obtain ⟨right, hr, h⟩ := bind_eq_ok.mp h
  obtain ⟨_, -, rfl⟩ := TypeMapping.column_eq_ok hl
  obtain ⟨_, -, rfl⟩ := TypeMapping.column_eq_ok hr
  exact ⟨_, _, rfl, rfl, (pure_eq_ok.mp h).symm⟩

end Schema

namespace Mapping

variable {schema : Schema} {f f' : Fresh}

/-- The source of a type is its table under a fresh alias. -/
theorem source_eq_ok {itemType : String} {source : Sql.Source}
    (h : (ofSchema schema).source itemType f = .ok (source, f')) :
    ∃ mapping, schema.typeMapping itemType = .ok mapping ∧
      source = .table itemType mapping.table (f.named "t").1 ∧ f' = (f.named "t").2 := by
  obtain ⟨mapping, f₁, hm, h⟩ := Supply.bind_eq_ok.mp h
  obtain ⟨mapped, rfl⟩ := Supply.lift_eq_ok.mp hm
  obtain ⟨tableAlias, f₂, ha, h⟩ := Supply.bind_eq_ok.mp h
  obtain ⟨rfl, rfl⟩ := Supply.pure_eq_ok.mp h
  have ha := Supply.freshAlias_eq_ok.mp ha
  rw [ha]
  exact ⟨mapping, mapped, rfl, rfl⟩

/-- A join leads to a table under a fresh alias and is made on a column of each side. -/
theorem join_eq_ok {e : Sql.Entity} {member : String} {t : JoinTarget}
    (h : (ofSchema schema).join e member f = .ok (t, f')) :
    ∃ itemType tableName, ∃ left right : Sql.Column,
      left.owner = e.tableAlias ∧ right.owner = (f.named "t").1 ∧
      t = ⟨.table itemType tableName (f.named "t").1, .column left, .column right⟩ ∧
      f' = (f.named "t").2 := by
  obtain ⟨path, f₁, hp, h⟩ := Supply.bind_eq_ok.mp h
  obtain ⟨-, rfl⟩ := Supply.lift_eq_ok.mp hp
  obtain ⟨tableAlias, f₂, ha, h⟩ := Supply.bind_eq_ok.mp h
  have ha := Supply.freshAlias_eq_ok.mp ha
  obtain ⟨joined, rfl⟩ := Supply.lift_eq_ok.mp h
  obtain ⟨left, right, hl, hr, ht⟩ := Schema.Path.join_eq_ok joined
  rw [ha]
  exact ⟨_, _, left, right, hl, hr, ht, rfl⟩

/-- A join starts from a column of the type that the member belongs to. -/
theorem leftKey_of_join {e : Sql.Entity} {member : String} {t : JoinTarget}
    (h : (ofSchema schema).join e member f = .ok (t, f')) :
    ∃ mapping foreignKey left, schema.typeMapping e.itemType = .ok mapping ∧
      mapping.column e.itemType foreignKey e.tableAlias = .ok left ∧ t.leftKey = .column left := by
  obtain ⟨path, f₁, hp, h⟩ := Supply.bind_eq_ok.mp h
  obtain ⟨found, -⟩ := Supply.lift_eq_ok.mp hp
  obtain ⟨tableAlias, f₂, -, h⟩ := Supply.bind_eq_ok.mp h
  obtain ⟨joined, -⟩ := Supply.lift_eq_ok.mp h
  obtain ⟨mapping, hm, found⟩ := bind_eq_ok.mp found
  obtain ⟨left, hl, joined⟩ := bind_eq_ok.mp joined
  obtain ⟨right, -, joined⟩ := bind_eq_ok.mp joined
  obtain rfl := pure_eq_ok.mp joined
  split at found
  · cases found
  · obtain ⟨target, -, found⟩ := bind_eq_ok.mp found
    obtain rfl := pure_eq_ok.mp found
    exact ⟨mapping, _, left, hm, hl, rfl⟩

end Mapping

/-- Cooks, each of whom works in a kitchen. -/
def Schema.restaurant : Schema :=
  ⟨[("Cook",
      { table := "CookTable", primaryKey := "ID"
        columns := [⟨"ID", none, .int32, false⟩, ⟨"FirstName", none, .string, false⟩,
          ⟨"KitchenID", none, .int32, false⟩]
        relations := [("Kitchen", ⟨"Kitchen", "KitchenID", none⟩)] }),
    ("Kitchen",
      { table := "KitchenTable", primaryKey := "ID"
        columns := [⟨"ID", none, .int32, false⟩, ⟨"Name", none, .string, true⟩]
        relations := [] })]⟩

end Comprehension
