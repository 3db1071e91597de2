import Comprehension.Method.Defaults

/-!
What the methods that are registered from the start have in common.
-/
namespace Comprehension.Method

namespace Registry

theorem mem_insert {signature : Signature} {transformer : Transformer}
    {entries : List (Signature × Transformer)} {entry : Signature × Transformer}
    (h : entry ∈ insert signature transformer entries) :
    entry = (signature, transformer) ∨ entry ∈ entries := by
  induction entries with
  | nil => exact .inl (List.mem_singleton.mp h)
  | cons first rest ih =>
    obtain ⟨s, t⟩ := first
    unfold insert at h
    split at h
    · rcases List.mem_cons.mp h with h | h
      · exact .inl h
      · exact .inr (List.mem_cons_of_mem _ h)
    · rcases List.mem_cons.mp h with h | h
      · exact .inr (h ▸ List.mem_cons_self)
      · exact (ih h).imp_right (List.mem_cons_of_mem _)

theorem mem_foldl_register (methods : List (Signature × Transformer)) (r : Registry)
    {entry : Signature × Transformer}
    (h : entry ∈ (methods.foldl (fun r (s, t) => r.register s t) r).entries) :
    entry ∈ methods ∨ entry ∈ r.entries := by
  induction methods generalizing r with
  | nil => exact .inr h
  | cons method rest ih =>
    rcases ih _ h with h | h
    · exact .inl (List.mem_cons_of_mem _ h)
    · rcases mem_insert h with rfl | h
      · exact .inl List.mem_cons_self
      · exact .inr h

/-- A call is replaced by one of the built-in methods, under the signature it is listed with. -/
theorem mem_builtIn {signature : Signature} {transformer : Transformer}
    (h : defaults.get? signature = some transformer) : (signature, transformer) ∈ builtIn := by
  obtain ⟨before, after, entries, -⟩ := List.lookup_eq_some_iff.mp h
  have mem : (signature, transformer) ∈ defaults.entries := by simp [entries]
  exact (mem_foldl_register builtIn .empty mem).resolve_right List.not_mem_nil

end Registry

namespace Pattern

open Sql (Expr Call)

/-- What a search for a pattern becomes. -/
def searched (anchor : Anchor) (value : Expr) : Expr → Expr
  | .constant .null _ => .constant (.bool false) .boolean
  | .constant (.string text) _ =>
    .like value (.constant (.string (anchor.pattern (escape text))) .string)
  | pattern => .like value (anchor.expression (.likeEscape pattern))

theorem search_eq (anchor : Anchor) (c : Call) :
    search anchor c = do
      let value ← c.instance?
      let pattern ← c.argument 0
      return searched anchor value pattern := by
  unfold search
  cases c.instance? with
  | error e => rfl
  | ok value =>
    cases c.argument 0 with
    | error e => rfl
    | ok pattern =>
      cases pattern with
      | constant v type => cases v <;> rfl
      | _ => rfl

end Pattern

end Comprehension.Method
