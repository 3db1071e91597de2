import Comprehension.Proofs.Offers

/-!
Which aliases the columns of a resolved statement are addressed through. An expression sees the
tables and joins of its own statement and of those around it, and a statement in a list of sources
sees the sources before it.
-/
namespace Comprehension.Sql

/-- Whether a link joins a table on two columns under visible aliases. -/
def Link.Addressed (visible : List String) : Link → Prop
  | .resolved (.table ..) (.column left) (.column right) =>
    left.owner ∈ visible ∧ right.owner ∈ visible
  | _ => False

/-- Whether all columns in a tree are addressed through visible aliases. -/
inductive Addressed : List String → Node → Prop where
  | expression {visible : List String} {e : Expr} (here : ∀ a ∈ e.addressed, a ∈ visible)
      (below : ∀ child ∈ (Node.expression e).children, Addressed visible child) :
      Addressed visible (.expression e)
  | statement {visible : List String} {s : Statement}
      (links : ∀ link ∈ tableLinks s.tables, link.Addressed (s.aliases ++ visible))
      (slots : ∀ slot ∈ s.slots, Addressed (s.aliases ++ visible) (.expression slot.2))
      (sources : ∀ before table after inner, s.tables = before ++ table :: after →
        table.source.statement? = some inner →
        Addressed (sourceAliases before ++ visible) (.statement inner)) :
      Addressed visible (.statement s)

variable {schema : Schema} {native : Bool} {offer : Offer} {visible : List String}

/-- Sources offer columns under their own aliases. -/
theorem Source.alias_of_offers {source : Source} {a name : String} (h : source.Offers a name) :
    source.tableAlias? = some a := by
  cases source with
  | unresolved itemType => exact h.elim
  | table itemType tableName tableAlias => exact congrArg some h.symm
  | statement tableAlias s => exact congrArg some h.1.symm

namespace Offer

variable {tables : List Table} {a name : String}

theorem extend_cases (h : offer.extend (tables.map Table.source) a name) :
    a ∈ sourceAliases tables ∨ offer a name := by
  refine h.imp_left fun ⟨source, hs, offers⟩ => ?_
  obtain ⟨table, ht, rfl⟩ := List.mem_map.mp hs
  exact List.mem_filterMap.mpr ⟨table, ht, Source.alias_of_offers offers⟩

theorem under_cases (h : offer.under tables a name) : a ∈ tableAliases tables ∨ offer a name := by
  refine h.imp_left fun ⟨source, hs, offers⟩ => List.mem_append.mpr ?_
  rcases List.mem_append.mp hs with hs | hs
  · obtain ⟨table, ht, rfl⟩ := List.mem_map.mp hs
    exact .inl (List.mem_filterMap.mpr ⟨table, ht, Source.alias_of_offers offers⟩)
  · obtain ⟨link, hl, linked⟩ := List.mem_filterMap.mp hs
    refine .inr (List.mem_filterMap.mpr ⟨link, hl, ?_⟩)
    cases link with
    | unresolved origin member => cases linked
    | resolved source' leftKey rightKey =>
      obtain rfl := Option.some.inj linked
      exact Source.alias_of_offers offers

end Offer

theorem Link.IsServed.addressed {link : Link} (h : link.IsServed offer)
    (known : ∀ a name, offer a name → a ∈ visible) : link.Addressed visible := by
  unfold Link.IsServed at h
  split at h
  · exact ⟨known _ _ h.1, known _ _ h.2⟩
  · exact h.elim

theorem Expr.IsServed.addressed {e : Expr} (h : e.IsServed schema offer) (keyed : e.keyed = true)
    (known : ∀ a name, offer a name → a ∈ visible) : ∀ a ∈ e.addressed, a ∈ visible := by
  intro a ha
  cases e with
  | column c =>
    obtain rfl := List.mem_singleton.mp ha
    exact known _ _ (h.offered _ List.mem_cons_self)
  | entity e =>
    have whole := h.whole e rfl
    have own (c : Column) (hc : c ∈ e.columns) : c.owner ∈ visible ∧ e.tableAlias ∈ visible := by
      refine ⟨known _ _ (h.offered (c.owner, c.name) ?_), known _ _ (h.offered (e.tableAlias, c.name) ?_)⟩
      · exact List.mem_flatMap.mpr ⟨c, hc, by simp⟩
      · exact List.mem_flatMap.mpr ⟨c, hc, by simp⟩
    rcases List.mem_cons.mp ha with rfl | ha
    · exact (own _ whole.primaryKey_mem).2
    · rcases List.mem_cons.mp ha with rfl | ha
      · exact (own _ whole.primaryKey_mem).1
      · obtain ⟨c, hc, rfl⟩ := List.mem_map.mp ha
        exact (own c hc).1
  | entityReference tableAlias name e =>
    obtain rfl := List.mem_singleton.mp ha
    exact known _ _ (h.offered (_, _) (List.mem_map_of_mem (h.whole e rfl).primaryKey_mem))
  | entityConstant type value key =>
    cases key with
    | constant id keyType => cases ha
    | _ => cases keyed
  | _ => cases ha

/-- What is offered is addressed through the aliases that offer it. -/
theorem Served.addressed {n : Node} (h : Served schema offer n) (ready : n.Ready)
    (known : ∀ a name, offer a name → a ∈ visible) : Addressed visible n := by
  induction h generalizing visible with
  | expression here below ih =>
    exact .expression (here.addressed ready.here.2 known) fun child hc =>
      ih child hc (ready.child hc) known
  | statement links columned slots sources ihSlots ihSources =>
    rename_i s
    have inside (a name : String) (offered : Offer.under _ s.tables a name) :
        a ∈ s.aliases ++ visible :=
      List.mem_append.mpr ((Offer.under_cases offered).imp_right (known a name))
    refine .statement (fun link hl => (links link hl).addressed inside) (fun slot hs => ?_)
      fun before table after inner split nested => ?_
    · exact ihSlots slot hs (ready.child (List.mem_append_left _ (List.mem_map_of_mem hs))) inside
    · have mem : inner ∈ sourceStatements _ :=
        List.mem_filterMap.mpr ⟨table, split ▸ List.mem_append_right _ List.mem_cons_self, nested⟩
      exact ihSources before table after inner split nested
        (ready.child (List.mem_append_right _ (List.mem_map_of_mem mem)))
        fun a name offered =>
          List.mem_append.mpr ((Offer.extend_cases offered).imp_right (known a name))

theorem Statement.addressed_of_resolve {s s' : Statement} {f f' : Fresh}
    (ready : (Node.statement s).Ready) (served : Served schema (fun _ _ => False) (.statement s))
    (h : s.resolve (Mapping.ofSchema schema) native f = .ok (s', f')) :
    Addressed [] (.statement s') :=
  (served_of_resolve ready served h).addressed (settled_of_resolve ready h).ready nofun

end Comprehension.Sql
