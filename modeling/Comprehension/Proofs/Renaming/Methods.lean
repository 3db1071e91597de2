import Comprehension.Proofs.Methods
import Comprehension.Proofs.Outcome

/-!
Methods do not look at how a query writes their calls. The text of a call, in which the names of
items stand, is at most quoted by an error.
-/
namespace Comprehension

namespace Error

/-- The error without what it quotes of the query: the names of items and the calls and sources as
they are written. -/
def unquoted : Error → Error
  | unsupportedMethod signature _ => unsupportedMethod signature ""
  | unsupportedClause (.source _ _) => unsupportedClause (.source "" "")
  | unsupportedClause (.keyJoin _) => unsupportedClause (.keyJoin "")
  | unsupportedClause (.groupJoin _) => unsupportedClause (.groupJoin "")
  | contract (.itemNotInScope _) => contract (.itemNotInScope "")
  | contract (.noInstance signature _) => contract (.noInstance signature "")
  | contract (.noArgument signature index _) => contract (.noArgument signature index "")
  | other => other

/-- Errors that differ at most in what they quote of the query. -/
def Akin (e e' : Error) : Prop := e.unquoted = e'.unquoted

theorem Akin.refl (e : Error) : Akin e e := rfl

end Error

open Error (Akin)
open Outcome (Parallel)

namespace Sql.Call

theorem instance?_akin (c : Call) (text : String) :
    Parallel Akin Eq c.instance? { c with text }.instance? := by
  unfold instance?
  cases c.object with
  | none => exact .error rfl
  | some object => exact .ok rfl

theorem argument_akin (c : Call) (text : String) (index : Nat) :
    Parallel Akin Eq (c.argument index) ({ c with text }.argument index) := by
  unfold argument
  cases c.arguments[index]? with
  | none => exact .error rfl
  | some argument => exact .ok rfl

end Sql.Call

namespace Method

open Sql (Call Expr)

/-- Whether a transformer makes the same of a call however the query writes it, but for what its
errors quote. -/
def Transformer.Indifferent (t : Transformer) : Prop :=
  ∀ (c : Call) (text : String), Parallel Akin Eq (t c) (t { c with text })

namespace Transformer.Indifferent

variable {build : Call → Expr → Except Error Expr}

/-- A method that goes on with its object. -/
theorem onInstance (h : ∀ value, Indifferent fun c => build c value) :
    Indifferent fun c => c.instance? >>= build c := by
  intro c text
  exact .bindSame (c.instance?_akin text) fun value => h value c text

/-- A method that goes on with one of its arguments. -/
theorem onArgument (index : Nat) (h : ∀ argument, Indifferent fun c => build c argument) :
    Indifferent fun c => c.argument index >>= build c := by
  intro c text
  exact .bindSame (c.argument_akin text index) fun argument => h argument c text

/-- A method that does not look at how the query writes the call. -/
theorem unread {t : Transformer} (h : ∀ c text, t { c with text } = t c) : Indifferent t := by
  intro c text
  rw [h c text]
  exact .refl Akin.refl _

theorem ofInstance (build : Expr → Expr) :
    Indifferent fun c => do return build (← c.instance?) :=
  onInstance fun _ => unread fun _ _ => rfl

theorem ofAmount (build : Expr → Expr → Expr) :
    Indifferent fun c => do
      let amount ← c.argument 0
      return build amount (← c.instance?) :=
  onArgument 0 fun amount => ofInstance (build amount)

end Transformer.Indifferent

open Transformer.Indifferent

theorem Strings.methods_indifferent : ∀ method ∈ methods, Transformer.Indifferent method.2 := by
  have substrings : Transformer.Indifferent substring :=
    onInstance fun _ => onArgument 0 fun _ => unread fun _ _ => rfl
  have removals : Transformer.Indifferent remove :=
    onInstance fun _ => onArgument 0 fun _ => unread fun _ _ => rfl
  have indices : Transformer.Indifferent indexOf :=
    onInstance fun _ => onArgument 0 fun _ => unread fun _ _ => rfl
  have insertions : Transformer.Indifferent insert :=
    onInstance fun _ => onArgument 0 fun _ => onArgument 1 fun _ => unread fun _ _ => rfl
  have uppers : Transformer.Indifferent toUpper := ofInstance _
  have lowers : Transformer.Indifferent toLower := ofInstance _
  have trims : Transformer.Indifferent trim := ofInstance _
  have lengths : Transformer.Indifferent lengthOf := ofInstance _
  simp only [methods, List.forall_mem_cons, substrings, removals, indices, insertions, uppers,
    lowers, trims, lengths]
  simp

theorem Pattern.methods_indifferent : ∀ method ∈ methods, Transformer.Indifferent method.2 := by
  have searches (anchor : Anchor) : Transformer.Indifferent (search anchor) := by
    rw [funext (search_eq anchor)]
    exact onInstance fun _ => onArgument 0 fun _ => unread fun _ _ => rfl
  simp only [methods, List.forall_mem_cons, searches]
  simp

theorem Dates.methods_indifferent : ∀ method ∈ methods, Transformer.Indifferent method.2 := by
  have units (factor : Int) : Transformer.Indifferent (addUnits factor) := ofAmount fun _ _ => _
  have ticks : Transformer.Indifferent addTicks := ofAmount fun _ _ => _
  have calendar (unit : String) : Transformer.Indifferent (addCalendar unit) := ofAmount _
  have parts (name : String) : Transformer.Indifferent (datePart name) := ofInstance _
  simp only [methods, List.forall_mem_cons, units, ticks, calendar, parts]
  simp

theorem Conversion.methods_indifferent :
    ∀ method ∈ methods, Transformer.Indifferent method.2 := by
  intro method h
  obtain ⟨target, -, h⟩ := List.mem_flatMap.mp h
  obtain ⟨source, -, rfl⟩ := List.mem_map.mp h
  have toType (name : String) :
      Transformer.Indifferent fun c => do return .convert name (← c.argument 0) c.type :=
    onArgument 0 fun _ => unread fun _ _ => rfl
  intro c text
  dsimp only [convert]
  cases sqlType? c.type with
  | none => exact .error rfl
  | some name => exact toType name c text

theorem FullText.methods_indifferent : ∀ method ∈ methods, Transformer.Indifferent method.2 := by
  intro method h
  obtain ⟨⟨name, function⟩, -, h⟩ := List.mem_flatMap.mp h
  obtain ⟨parameters, -, rfl⟩ := List.mem_map.mp h
  exact onArgument 0 fun _ => onArgument 1 fun _ => unread fun _ _ => rfl

theorem Equality.methods_indifferent : ∀ method ∈ methods, Transformer.Indifferent method.2 := by
  intro method h
  obtain ⟨type, -, h⟩ := List.mem_flatMap.mp h
  obtain ⟨parameters, -, rfl⟩ := List.mem_map.mp h
  have toObject (object : Expr) :
      Transformer.Indifferent fun c => do return .equal object (← c.argument 0) :=
    onArgument 0 fun _ => unread fun _ _ => rfl
  have arguments :
      Transformer.Indifferent fun c => do return .equal (← c.argument 0) (← c.argument 1) :=
    onArgument 0 fun _ => onArgument 1 fun _ => unread fun _ _ => rfl
  intro c text
  dsimp only [equals]
  cases c.object with
  | some object => exact toObject object c text
  | none => exact arguments c text

namespace Registry

theorem builtIn_indifferent : ∀ method ∈ builtIn, Transformer.Indifferent method.2 := by
  simp only [builtIn, List.forall_mem_append]
  exact ⟨⟨⟨⟨⟨Strings.methods_indifferent, Pattern.methods_indifferent⟩, Dates.methods_indifferent⟩,
    Conversion.methods_indifferent⟩, FullText.methods_indifferent⟩, Equality.methods_indifferent⟩

/-- How the query writes a call is at most quoted. -/
theorem transform_akin (c : Call) (text : String) :
    Parallel Akin Eq (defaults.transform c) (defaults.transform { c with text }) := by
  unfold transform
  cases found : defaults.get? c.signature with
  | none => exact .error rfl
  | some transformer => exact builtIn_indifferent _ (mem_builtIn found) c text

end Registry

end Method

end Comprehension
