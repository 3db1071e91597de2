import Comprehension.Method.Rules
import Comprehension.Proofs.Methods
import Comprehension.Proofs.Outcome
import Comprehension.Proofs.Vocabulary

/-!
What preparation builds expressions of. A method puts its operands together with constants, the
words of the vocabulary and operators; it neither takes a statement apart nor makes one.
-/
namespace Comprehension

open Sql (BinaryOp Call Expr Kind Node)

namespace Sql

/-- Kinds of nodes that preparation makes of other nodes. -/
def Kind.isBuilt : Kind → Bool
  | constant | literal | customText | binary | like | likeEscape | logical | not | case | function
  | convert | compound | tableReference | member => true
  | _ => false

/-- Kinds of nodes that have a value on each row. -/
def Kind.isRowwise (kind : Kind) : Bool := kind.isBuilt || kind = .subStatement

/-- Kinds of nodes that depend on several rows. Only result operators make them. -/
def Kind.spansRows : Kind → Bool
  | aggregation | rowNumber => true
  | _ => false

/-- Kinds of nodes that a method makes of its operands. -/
def Kind.isComposed : Kind → Bool
  | constant | literal | customText | binary | like | likeEscape | logical | case | function
  | convert => true
  | _ => false

/-- Kinds among which are all those of methods. -/
class Kind.Composing (kinds : Kind → Bool) : Prop where
  composed {kind : Kind} (h : kind.isComposed = true) : kinds kind = true

instance : Kind.Composing Kind.isComposed := ⟨id⟩

instance : Kind.Composing Kind.isBuilt where
  composed {kind} h := by cases kind <;> first | rfl | cases h

/-- Nodes that are put together of given ones by nodes of some kinds. -/
inductive Made (kinds : Kind → Bool) (parts : List Node) : Node → Prop where
  | part {n : Node} (h : n ∈ parts) : Made kinds parts n
  | node {e : Expr} (kind : kinds e.kind = true) (worded : e.IsWorded)
      (slots : ∀ slot ∈ e.slots, Made kinds parts (.expression slot.2)) :
      Made kinds parts (.expression e)

/-- What preparation puts together of given nodes. -/
abbrev Built := Made Kind.isBuilt

/-- What a method puts together of given nodes. -/
abbrev Composed := Made Kind.isComposed

namespace Built

variable {parts : List Node}

/-- What holds throughout the parts, and of every node that is made, holds throughout the whole. -/
theorem everywhere {P : Node → Prop}
    (hp : ∀ e : Expr, e.kind.isBuilt = true → e.IsWorded → P (.expression e))
    (hn : ∀ n ∈ parts, n.Everywhere P) {n : Node} (h : Built parts n) : n.Everywhere P := by
  induction h with
  | part h => exact hn _ h
  | node kind worded slots ih =>
    refine .ofSlots ?_ (hp _ kind worded) ih
    rintro s rfl
    cases kind

/-- What is put together has a value on each row, if its parts have. -/
theorem rowwise (hn : ∀ e, .expression e ∈ parts → e.kind.isRowwise = true) {e : Expr}
    (h : Built parts (.expression e)) : e.kind.isRowwise = true := by
  cases h with
  | part h => exact hn e h
  | node kind worded slots => rw [Kind.isRowwise, kind, Bool.true_or]

end Built

namespace Made

open Kind.Composing (composed)

variable {kinds : Kind → Bool} {parts : List Node} {left right : Expr}

theorem built {n : Node} (h : Composed parts n) : Built parts n := by
  induction h with
  | part h => exact .part h
  | node kind worded slots ih => exact .node (composed kind) worded ih

/-- A node without a text of its own. -/
theorem plain {e : Expr} (kind : kinds e.kind = true) (silent : e.wording = none)
    (slots : ∀ slot ∈ e.slots, Made kinds parts (.expression slot.2)) :
    Made kinds parts (.expression e) :=
  .node kind (Expr.worded_of_wording_eq_none silent) slots

variable [Kind.Composing kinds]

theorem int (n : Int) : Made kinds parts (.expression (.int n)) :=
  .plain (composed rfl) rfl (by simp [Expr.int, Expr.slots])

theorem text (s : String) : Made kinds parts (.expression (.text s)) :=
  .plain (composed rfl) rfl (by simp [Expr.text, Expr.slots])

theorem constant (value : Value) (type : ValueType) :
    Made kinds parts (.expression (.constant value type)) :=
  .plain (composed rfl) rfl (by simp [Expr.slots])

theorem customText {text : String} (type : ValueType) (known : Kind.customText.Knows text) :
    Made kinds parts (.expression (.customText text type)) :=
  .node (composed rfl) (fun _ h => Option.some.inj h ▸ known) (by simp [Expr.slots])

theorem binary {op : BinaryOp} {type : ValueType} (hl : Made kinds parts (.expression left))
    (hr : Made kinds parts (.expression right)) :
    Made kinds parts (.expression (.binary op left right type)) :=
  .plain (composed rfl) rfl (by simp [Expr.slots, hl, hr])

theorem logical {op : LogicalOp} (hl : Made kinds parts (.expression left))
    (hr : Made kinds parts (.expression right)) :
    Made kinds parts (.expression (.logical op left right)) :=
  .plain (composed rfl) rfl (by simp [Expr.slots, hl, hr])

theorem like (hl : Made kinds parts (.expression left)) (hr : Made kinds parts (.expression right)) :
    Made kinds parts (.expression (.like left right)) :=
  .plain (composed rfl) rfl (by simp [Expr.slots, hl, hr])

theorem likeEscape (h : Made kinds parts (.expression left)) :
    Made kinds parts (.expression (.likeEscape left)) :=
  .plain (composed rfl) rfl (by simp [Expr.slots, h])

theorem convert {target : String} {type : ValueType} (h : Made kinds parts (.expression left))
    (known : target ∈ Vocabulary.types) :
    Made kinds parts (.expression (.convert target left type)) :=
  .node (composed rfl) (fun _ ht => Option.some.inj ht ▸ known) (by simp [Expr.slots, h])

theorem function {name : String} {args : List Expr} {type : ValueType} {isPredicate : Bool}
    (h : ∀ e ∈ args, Made kinds parts (.expression e))
    (known : name ∈ Vocabulary.functions) :
    Made kinds parts (.expression (.function name args type isPredicate)) :=
  .node (composed rfl) (fun _ hn => Option.some.inj hn ▸ known) (by simpa [Expr.slots] using h)

theorem caseWhen {test ifTrue ifFalse : Expr} (ht : Made kinds parts (.expression test))
    (hv : Made kinds parts (.expression ifTrue)) (hf : Made kinds parts (.expression ifFalse)) :
    Made kinds parts (.expression (.caseWhen test ifTrue ifFalse)) :=
  .plain (composed rfl) rfl (by simp [Expr.caseWhen, Expr.slots, ht, hv, hf])

end Made

end Sql

open Sql (Built Composed Made)

namespace Method

/-- Whether a transformer puts the operands of a call together. -/
def Transformer.Builds (t : Transformer) : Prop :=
  ∀ c e, t c = .ok e → Composed ((Transformer.operands c).map .expression) (.expression e)

section Operands

variable {c : Call} {e : Expr}

theorem built_instance (h : c.instance? = .ok e) :
    Composed ((Transformer.operands c).map .expression) (.expression e) := by
  unfold Call.instance? at h
  split at h
  · rename_i object found
    obtain rfl := Except.ok.inj h
    refine .part (List.mem_map_of_mem (List.mem_append_left _ ?_))
    simp [found]
  · cases h

theorem built_argument? {index : Nat} (h : c.arguments[index]? = some e) :
    Composed ((Transformer.operands c).map .expression) (.expression e) :=
  .part (List.mem_map_of_mem (List.mem_append_right _ (List.mem_of_getElem? h)))

theorem built_argument {index : Nat} (h : c.argument index = .ok e) :
    Composed ((Transformer.operands c).map .expression) (.expression e) := by
  unfold Call.argument at h
  split at h
  · rename_i found
    obtain rfl := Except.ok.inj h
    exact built_argument? found
  · cases h

end Operands

section Functions

variable {parts : List Node}

theorem Strings.built_length {value : Expr} (h : Composed parts (.expression value)) :
    Composed parts (.expression (length value)) :=
  .binary (.function (by simpa using .binary h (.text "#")) (by decide)) (.int 1)

theorem Strings.built_oneBased {index : Expr} (h : Composed parts (.expression index)) :
    Composed parts (.expression (oneBased index)) :=
  .binary h (.int 1)

theorem Strings.built_indexIn {text value : Expr} {start count : Option Expr}
    (ht : Composed parts (.expression text)) (hv : Composed parts (.expression value))
    (hs : ∀ e, start = some e → Composed parts (.expression e))
    (hc : ∀ e, count = some e → Composed parts (.expression e)) :
    Composed parts (.expression (indexIn text value start count)) := by
  have empty : Composed parts (.expression (.equal (length value) (.int 0))) :=
    .binary (built_length hv) (.int 0)
  cases start with
  | none =>
    exact .caseWhen empty (.int 0) (.binary (.function (by simp [hv, ht]) (by decide)) (.int 1))
  | some start =>
    have start' := hs start rfl
    have searched {e : Expr} (he : Composed parts (.expression e)) :
        Composed parts (.expression (.caseWhen
          (.and (.equal (length value) (.int 0))
            (.binaryOf .lessThanOrEqual (oneBased start) (length e)))
          start
          (.subtract (.valueFunction "CHARINDEX" [value, e, oneBased start] .int32) (.int 1)))) :=
      .caseWhen (.logical empty (.binary (built_oneBased start') (built_length he))) start'
        (.binary (.function (by simp [hv, he, built_oneBased start']) (by decide)) (.int 1))
    cases count with
    | none => exact searched ht
    | some count =>
      have end' : Composed parts (.expression (.add start count)) := .binary start' (hc count rfl)
      exact searched (.function (by simp [ht, Made.int, end']) (by decide))

theorem Pattern.built_expression (anchor : Anchor) {e : Expr} (h : Composed parts (.expression e)) :
    Composed parts (.expression (anchor.expression e)) := by
  cases anchor with
  | anywhere => exact .binary (.binary (.text "%") h) (.text "%")
  | start => exact .binary h (.text "%")
  | finish => exact .binary (.text "%") h

theorem Dates.built_dateAdd {unit : String} {amount date : Expr}
    (known : unit ∈ Sql.Vocabulary.dateParts) (ha : Composed parts (.expression amount))
    (hd : Composed parts (.expression date)) :
    Composed parts (.expression (dateAdd unit amount date)) := by
  have part : Composed parts (.expression (part unit)) := .customText .string (.inl known)
  exact .function (by simp [ha, hd, part]) (by decide)

theorem Dates.built_addMilliseconds {date milliseconds : Expr}
    (hd : Composed parts (.expression date)) (hm : Composed parts (.expression milliseconds)) :
    Composed parts (.expression (addMilliseconds date milliseconds)) :=
  built_dateAdd (by simp [Sql.Vocabulary.dateParts]) (.binary hm (.int _))
    (built_dateAdd (by simp [Sql.Vocabulary.dateParts]) (.binary hm (.int _)) hd)

end Functions

open Outcome (bind_eq_ok pure_eq_ok)

namespace Strings

theorem built_lengthOrRest {c : Call} {value start : Expr}
    (hv : Composed ((Transformer.operands c).map .expression) (.expression value))
    (hs : Composed ((Transformer.operands c).map .expression) (.expression start)) :
    Composed ((Transformer.operands c).map .expression) (.expression (lengthOrRest c value start)) := by
  unfold lengthOrRest
  split
  · exact built_argument? (by assumption)
  · exact .binary (built_length hv) hs

end Strings

namespace Transformer.Builds

/-- A method of its object alone. -/
theorem ofInstance {build : Expr → Expr} (h : ∀ {parts : List Node} {value : Expr},
      Composed parts (.expression value) → Composed parts (.expression (build value))) :
    Builds (fun c => do return build (← c.instance?)) := by
  intro c e hc
  obtain ⟨value, hv, hc⟩ := bind_eq_ok.mp hc
  obtain rfl := pure_eq_ok.mp hc
  exact h (built_instance hv)

/-- A method of its object and an amount. -/
theorem ofAmount {build : Expr → Expr → Expr} (h : ∀ {parts : List Node} {amount value : Expr},
      Composed parts (.expression amount) → Composed parts (.expression value) →
        Composed parts (.expression (build amount value))) :
    Builds (fun c => do
      let amount ← c.argument 0
      return build amount (← c.instance?)) := by
  intro c e hc
  obtain ⟨amount, ha, hc⟩ := bind_eq_ok.mp hc
  obtain ⟨value, hv, hc⟩ := bind_eq_ok.mp hc
  obtain rfl := pure_eq_ok.mp hc
  exact h (built_argument ha) (built_instance hv)

end Transformer.Builds

namespace Strings

theorem substring_builds : Transformer.Builds substring := by
  intro c e h
  obtain ⟨value, hv, h⟩ := bind_eq_ok.mp h
  obtain ⟨start, hs, h⟩ := bind_eq_ok.mp h
  obtain rfl := pure_eq_ok.mp h
  have value' := built_instance hv
  have start' := built_argument hs
  exact .function (by simp [value', built_oneBased start', built_lengthOrRest value' start'])
    (by decide)

theorem remove_builds : Transformer.Builds remove := by
  intro c e h
  obtain ⟨value, hv, h⟩ := bind_eq_ok.mp h
  obtain ⟨start, hs, h⟩ := bind_eq_ok.mp h
  obtain rfl := pure_eq_ok.mp h
  have value' := built_instance hv
  have start' := built_argument hs
  exact .function
    (by simp [value', built_oneBased start', built_lengthOrRest value' start', Made.text])
    (by decide)

theorem toUpper_builds : Transformer.Builds toUpper :=
  .ofInstance fun hv => .function (by simpa using hv) (by decide)

theorem toLower_builds : Transformer.Builds toLower :=
  .ofInstance fun hv => .function (by simpa using hv) (by decide)

theorem trim_builds : Transformer.Builds trim :=
  .ofInstance fun hv =>
    .function (by simpa using .function (by simpa using hv) (by decide)) (by decide)

theorem lengthOf_builds : Transformer.Builds lengthOf := .ofInstance built_length

theorem indexOf_builds : Transformer.Builds indexOf := by
  intro c e h
  obtain ⟨text, ht, h⟩ := bind_eq_ok.mp h
  obtain ⟨value, hv, h⟩ := bind_eq_ok.mp h
  obtain rfl := pure_eq_ok.mp h
  exact built_indexIn (built_instance ht) (built_argument hv) (fun _ => built_argument?)
    fun _ => built_argument?

theorem insert_builds : Transformer.Builds insert := by
  intro c e h
  obtain ⟨text, ht, h⟩ := bind_eq_ok.mp h
  obtain ⟨index, hi, h⟩ := bind_eq_ok.mp h
  obtain ⟨value, hv, h⟩ := bind_eq_ok.mp h
  obtain rfl := pure_eq_ok.mp h
  have text' := built_instance ht
  have index' := built_oneBased (built_argument hi)
  have value' := built_argument hv
  exact .caseWhen (.binary (built_oneBased (built_length text')) index') (.binary text' value')
    (.function (by simp [text', index', value', Made.int]) (by decide))

theorem methods_build : ∀ method ∈ methods, Transformer.Builds method.2 := by
  simp only [methods, List.forall_mem_cons, substring_builds, remove_builds, toUpper_builds,
    toLower_builds, trim_builds, indexOf_builds, insert_builds, lengthOf_builds]
  simp

end Strings

namespace Pattern

theorem search_builds (anchor : Anchor) : Transformer.Builds (search anchor) := by
  intro c e h
  rw [search_eq] at h
  obtain ⟨value, hv, h⟩ := bind_eq_ok.mp h
  obtain ⟨pattern, hp, h⟩ := bind_eq_ok.mp h
  obtain rfl := pure_eq_ok.mp h
  have value' := built_instance hv
  unfold searched
  split
  · exact .constant _ _
  · exact .like value' (.constant _ _)
  · exact .like value' (built_expression anchor (.likeEscape (built_argument hp)))

theorem methods_build : ∀ method ∈ methods, Transformer.Builds method.2 := by
  simp only [methods, List.forall_mem_cons, search_builds]
  simp

end Pattern

namespace Dates

theorem addUnits_builds (factor : Int) : Transformer.Builds (addUnits factor) :=
  .ofAmount fun ha hd => built_addMilliseconds hd
    (.convert (.binary ha (.int factor)) (by simp [Sql.Vocabulary.types]))

theorem addTicks_builds : Transformer.Builds addTicks :=
  .ofAmount fun ha hd => built_addMilliseconds hd (.binary ha (.int _))

theorem addCalendar_builds {unit : String} (known : unit ∈ Sql.Vocabulary.dateParts) :
    Transformer.Builds (addCalendar unit) :=
  .ofAmount (built_dateAdd known)

theorem datePart_builds {name : String} (known : name ∈ Sql.Vocabulary.dateParts) :
    Transformer.Builds (datePart name) :=
  .ofInstance fun hd =>
    .function (by simpa using ⟨.customText .string (.inl known), hd⟩) (by decide)

theorem methods_build : ∀ method ∈ methods, Transformer.Builds method.2 := by
  have calendar (unit : String) (known : unit ∈ Sql.Vocabulary.dateParts) :=
    And.intro (addCalendar_builds known) (datePart_builds known)
  simp only [Sql.Vocabulary.dateParts, List.forall_mem_cons] at calendar
  simp [methods, addUnits_builds, addTicks_builds, calendar]

end Dates

namespace Conversion

theorem mem_types_of_sqlType? {type : ValueType} {target : String}
    (h : sqlType? type = some target) : target ∈ Sql.Vocabulary.types := by
  unfold sqlType? at h
  split at h
  case h_12 => cases h
  all_goals
    obtain rfl := Option.some.inj h
    simp [Sql.Vocabulary.types]

theorem convert_builds : Transformer.Builds convert := by
  intro c e h
  unfold convert at h
  split at h
  · cases h
  · rename_i target named
    obtain ⟨value, hv, h⟩ := bind_eq_ok.mp h
    obtain rfl := pure_eq_ok.mp h
    exact .convert (built_argument hv) (mem_types_of_sqlType? named)

theorem methods_build : ∀ method ∈ methods, Transformer.Builds method.2 := by
  intro method h
  obtain ⟨target, -, h⟩ := List.mem_flatMap.mp h
  obtain ⟨source, -, rfl⟩ := List.mem_map.mp h
  exact convert_builds

end Conversion

namespace FullText

theorem built_language {parts : List Node} {c : Call} {code e : Expr}
    (h : language c code = .ok e) : Composed parts (.expression e) := by
  unfold language at h
  split at h
  · exact Except.ok.inj h ▸ .customText _ (.inr (.inl ⟨_, rfl⟩))
  · exact Except.ok.inj h ▸ .customText _ (.inr (.inr ⟨_, rfl⟩))
  · cases h

theorem search_builds {function : String} (known : function ∈ Sql.Vocabulary.functions) :
    Transformer.Builds (search function) := by
  intro c e h
  obtain ⟨column, hl, h⟩ := bind_eq_ok.mp h
  obtain ⟨condition, hr, h⟩ := bind_eq_ok.mp h
  have column' := built_argument hl
  have condition' := built_argument hr
  split at h
  · obtain rfl := pure_eq_ok.mp h
    exact .function (by simp [column', condition']) known
  · obtain ⟨code, hc, h⟩ := bind_eq_ok.mp h
    obtain rfl := pure_eq_ok.mp h
    exact .function (by simp [column', condition', built_language hc]) known

theorem methods_build : ∀ method ∈ methods, Transformer.Builds method.2 := by
  intro method h
  obtain ⟨⟨name, function⟩, mem, h⟩ := List.mem_flatMap.mp h
  obtain ⟨parameters, -, rfl⟩ := List.mem_map.mp h
  refine search_builds ?_
  simp only [List.mem_cons, List.not_mem_nil, or_false, Prod.mk.injEq] at mem
  rcases mem with ⟨-, rfl⟩ | ⟨-, rfl⟩ <;> simp [Sql.Vocabulary.functions]

end FullText

namespace Equality

theorem equals_builds : Transformer.Builds equals := by
  intro c e h
  unfold equals at h
  split at h
  · rename_i object found
    obtain ⟨right, hr, h⟩ := bind_eq_ok.mp h
    obtain rfl := pure_eq_ok.mp h
    have object' : c.instance? = .ok object := by simp [Call.instance?, found]
    exact .binary (built_instance object') (built_argument hr)
  · obtain ⟨left, hl, h⟩ := bind_eq_ok.mp h
    obtain ⟨right, hr, h⟩ := bind_eq_ok.mp h
    obtain rfl := pure_eq_ok.mp h
    exact .binary (built_argument hl) (built_argument hr)

theorem methods_build : ∀ method ∈ methods, Transformer.Builds method.2 := by
  intro method h
  obtain ⟨type, -, h⟩ := List.mem_flatMap.mp h
  obtain ⟨parameters, -, rfl⟩ := List.mem_map.mp h
  exact equals_builds

end Equality

/-- The built-in methods put the operands of a call together. -/
theorem Registry.builtIn_build : ∀ method ∈ builtIn, Transformer.Builds method.2 := by
  simp only [builtIn, List.forall_mem_append]
  exact ⟨⟨⟨⟨⟨Strings.methods_build, Pattern.methods_build⟩, Dates.methods_build⟩,
    Conversion.methods_build⟩, FullText.methods_build⟩, Equality.methods_build⟩

theorem Registry.transform_builds (c : Call) (e : Expr) (h : defaults.transform c = .ok e) :
    Built ((Transformer.operands c).map .expression) (.expression e) := by
  unfold transform at h
  split at h
  · rename_i transformer found
    exact (builtIn_build _ (mem_builtIn found) c e h).built
  · cases h

end Method

end Comprehension
