import Comprehension.Proofs.DeclaredTypes
import Comprehension.Proofs.Numbering
import Comprehension.Proofs.Revisits
import Comprehension.Proofs.SelectList
import Comprehension.Proofs.SingleValues

/-!
Groups are selected by their key, which is resolved and written twice. Behind `GROUP BY` the items
of the select list stand again without their names, and hand over the values of their parameters
again, under further numbers. A statement inside the key would be resolved to tables of its own each
time.
-/
namespace Comprehension.Command

open Sql (Column Expr exposedName)

section Spelling

variable {dialect : Dialect} {a : List Piece}

/-- The text of pieces that follow `before` parameters. -/
def textAfter (dialect : Dialect) (before : Nat) (pieces : List Piece) : String :=
  String.join ((spelled dialect before pieces).map (·.2))

theorem textAfter_cons (before : Nat) (piece : Piece) (rest : List Piece) :
    textAfter dialect before (piece :: rest) = piece.spelling dialect before ++
      textAfter dialect (if piece.value?.isSome then before + 1 else before) rest := by
  simp [textAfter, spelled]

theorem textAfter_append (before : Nat) (a b : List Piece) :
    textAfter dialect before (a ++ b) =
      textAfter dialect before a ++ textAfter dialect (before + (values a).length) b := by
  induction a generalizing before with
  | nil => simp [textAfter, spelled]
  | cons piece a ih =>
    rw [List.cons_append, textAfter_cons, textAfter_cons, ih, String.append_assoc]
    cases piece <;> simp [Nat.add_comm, Nat.add_assoc]

theorem textAfter_clauses (selected source key order : List Piece) :
    textAfter dialect 0 (.text "SELECT " ::
        (selected ++ (source ++ .text " GROUP BY " :: (key ++ order)))) =
      "SELECT " ++ textAfter dialect 0 selected ++
        textAfter dialect (values selected).length source ++
        " GROUP BY " ++ textAfter dialect (values selected ++ values source).length key ++
        textAfter dialect (values selected ++ values source ++ values key).length order := by
  simp only [textAfter_cons, textAfter_append]
  simp [Piece.spelling, String.append_assoc, Nat.add_assoc]

/-- Without parameters, it does not matter how many there are before. -/
theorem textAfter_of_values_eq_nil (h : values a = []) (before later : Nat) :
    textAfter dialect before a = textAfter dialect later a := by
  induction a with
  | nil => rfl
  | cons piece a ih =>
    rw [values_cons, List.append_eq_nil_iff] at h
    rw [textAfter_cons, textAfter_cons]
    cases piece with
    | parameter value => cases h.1
    | _ => simpa [Piece.spelling] using ih h.2

end Spelling

/-- An item of a select list, with the name that it is given there. -/
structure Item where
  value : List Piece
  label : Option String

def Item.pieces (item : Item) : List Piece :=
  item.value ++ match item.label with
    | none => []
    | some name => [.text " AS ", .identifier name]

/-- Lists inside a list are parts of it. -/
theorem commas_blocks (before : List (List Piece)) {blocks : List (List (List Piece))}
    (h : ∀ block ∈ blocks, block ≠ []) :
    commas (before ++ blocks.map commas) = commas (before ++ blocks.flatten) := by
  induction blocks generalizing before with
  | nil => rfl
  | cons block rest ih =>
    obtain ⟨here, below⟩ := List.forall_mem_cons.mp h
    rw [List.map_cons, commas_flatten before here, ← List.append_assoc, ih _ below,
      List.flatten_cons, List.append_assoc]

/-- A column of an entity as an item. -/
def columnItem (tableAlias : String) (readName writtenName : Option String) (c : Column) : Item :=
  if c.isStar then ⟨columnPieces tableAlias "*", none⟩
  else
    let source := exposedName readName c.name
    let target := exposedName writtenName c.name
    ⟨columnPieces tableAlias source, if target = source then none else some target⟩

theorem entityColumn_eq (tableAlias : String) (readName writtenName : Option String) (c : Column) :
    entityColumn tableAlias readName writtenName c =
      (columnItem tableAlias readName writtenName c).pieces := by
  unfold entityColumn columnItem Item.pieces
  split
  · simp
  · dsimp only
    split <;> simp

/-- The values that items hand over. -/
def handed (items : List Item) : List Value := items.flatMap fun item => values item.value

theorem values_selected (items : List Item) :
    values (commas (items.map Item.pieces)) = handed items := by
  have unnamed (item : Item) : values item.pieces = values item.value := by
    obtain ⟨value, label⟩ := item
    cases label <;> simp [Item.pieces]
  simp [handed, unnamed, List.flatMap_map]

theorem values_keys (items : List Item) :
    values (commas (items.map Item.value)) = handed items := by
  simp [handed, List.flatMap_map]

/-- Whether a command lists items behind `SELECT`, and their values again in the text behind
`GROUP BY`. The values of their parameters are handed over twice. -/
def GroupsBy (c : Command) (dialect : Dialect) (items : List Item) (key : String) : Prop :=
  ∃ (tables : List (Sql.JoinKind × Sql.Source × List Piece)) (condition : Option (List Piece))
      (order : String) (between after : List Value),
    c.text = "SELECT " ++ textAfter dialect 0 (commas (items.map Item.pieces)) ++
      textAfter dialect (handed items).length
        (clause " FROM " (attached tables) ++ clause " WHERE " condition) ++
      " GROUP BY " ++ key ++ order ∧
    (order = "" ∨ ∃ keys, order = " ORDER BY " ++ keys) ∧
    key = textAfter dialect (handed items ++ between).length (commas (items.map Item.value)) ∧
    c.parameters.map (·.value) = handed items ++ between ++ handed items ++ after

/-- Whether an item is a column, or one of some values. -/
def Item.IsAmong (native : Bool) (values : List Expr) (item : Item) : Prop :=
  IsOneValue item.value ∨
    ∃ e ∈ values, e.kind.isMany = false ∧ e.pieces native .projected = .ok item.value

theorem Item.IsAmong.mono {native : Bool} {values values' : List Expr} {item : Item}
    (h : item.IsAmong native values) (sub : values ⊆ values') : item.IsAmong native values' :=
  h.imp_right fun ⟨e, he, written⟩ => ⟨e, sub he, written⟩

theorem isOneValue_columnItem (tableAlias : String) (readName writtenName : Option String)
    (c : Column) : IsOneValue (columnItem tableAlias readName writtenName c).value := by
  unfold columnItem
  split
  · exact isOneValue_columnPieces _ _
  · exact isOneValue_columnPieces _ _

end Comprehension.Command

namespace Comprehension.Sql

open Command
open Outcome (bind_eq_ok pure_eq_ok)

mutual

/-- The values that a record holds, those of records inside it included. -/
def Expr.listed : Expr → List Expr
  | .compound members => membersListed members
  | e => [e]

def membersListed : List Named → List Expr
  | [] => []
  | ⟨_, e⟩ :: rest => e.listed ++ membersListed rest

end

/-- Whether a list is written as items: with their names in one place, and without them in another.
Each item is a column of an entity or one of some values. -/
structure Itemizes (native : Bool) (values : List Expr) (items : List Item)
    (projected grouped : List Piece) : Prop where
  nonempty : items ≠ []
  projected_eq : projected = commas (items.map Item.pieces)
  grouped_eq : grouped = commas (items.map Item.value)
  each : ∀ item ∈ items, item.IsAmong native values

section Items

variable {schema : Schema} {native : Bool} {offer : Offer} {values : List Expr}

theorem Entity.itemizes {e : Entity} (whole : e.IsWhole schema) {tableAlias : String}
    {readName : Option String} (writtenName : Option String) {key : Column → List Piece}
    (same : ∀ c ∈ e.columns, key c = (columnItem tableAlias readName writtenName c).value) :
    Itemizes native values (e.columns.map (columnItem tableAlias readName writtenName))
      (entityPieces tableAlias e readName writtenName) (commas (e.columns.map key)) := by
  refine ⟨?_, ?_, ?_, ?_⟩
  · simpa using List.ne_nil_of_mem whole.primaryKey_mem
  · rw [entityPieces, List.map_map]
    exact congrArg commas (List.map_congr_left fun c _ => entityColumn_eq _ _ _ c)
  · rw [List.map_map]
    exact congrArg commas (List.map_congr_left same)
  · intro item hi
    obtain ⟨c, -, rfl⟩ := List.mem_map.mp hi
    exact .inl (isOneValue_columnItem _ _ _ _)

/-- An entity is grouped by the columns that it is selected by. -/
theorem Entity.itemizes_own {e : Entity} (whole : e.IsWhole schema) (name : Option String) :
    Itemizes native values (e.columns.map (columnItem e.tableAlias none name))
      (entityPieces e.tableAlias e none name) (groupedEntity e) := by
  refine itemizes whole name fun c hc => ?_
  rw [whole.owner_eq hc, columnItem]
  split
  · rename_i star
    rw [of_decide_eq_true star]
  · rfl

/-- An entity that a statement exposes is read under the same name. -/
theorem Entity.itemizes_exposed {e : Entity} (whole : e.IsWhole schema) (tableAlias : String)
    (name : Option String) :
    Itemizes native values (e.columns.map (columnItem tableAlias e.name name))
      (entityPieces tableAlias e e.name name) (entityPieces tableAlias e e.name e.name) := by
  refine itemizes whole name fun c _ => ?_
  unfold entityColumn columnItem
  split
  · rfl
  · simp

theorem Expr.pieces_grouped {e : Expr} (few : e.kind.isMany = false) :
    e.pieces native .grouped = e.pieces native .projected := by
  cases e with
  | entity | entityReference | compound | named => cases few
  | _ => rfl

theorem Expr.itemizes_value {e : Expr} (few : e.kind.isMany = false) (label : Option String)
    {pieces grouped : List Piece} (hp : e.pieces native .projected = .ok pieces)
    (hg : e.pieces native .grouped = .ok grouped) :
    Itemizes native [e] [⟨pieces, label⟩] (Item.pieces ⟨pieces, label⟩) grouped := by
  rw [pieces_grouped few, hp] at hg
  obtain rfl := Except.ok.inj hg
  refine ⟨by simp, by simp [commas, List.intercalate], by simp [commas, List.intercalate], ?_⟩
  exact List.forall_mem_singleton.mpr (.inr ⟨e, List.mem_singleton_self e, few, hp⟩)

/-- A record is written member by member. -/
theorem itemizes_blocks {blocks : List (List Item)} (nonempty : ∀ block ∈ blocks, block ≠ [])
    (each : ∀ block ∈ blocks, ∀ item ∈ block, item.IsAmong native values) :
    ∃ items, Itemizes native values items
      (commas (blocks.map fun block => commas (block.map Item.pieces)))
      (commas (blocks.map fun block => commas (block.map Item.value))) := by
  have flattened (f : Item → List Piece) :
      commas (blocks.map fun block => commas (block.map f)) = commas (blocks.flatten.map f) := by
    have parts := commas_blocks []
      (show ∀ block ∈ blocks.map (List.map f), block ≠ [] by simpa using nonempty)
    simpa [List.map_flatten, Function.comp_def] using parts
  by_cases empty : blocks.flatten = []
  · -- A record without members is written as one item without a text.
    refine ⟨[⟨[], none⟩], by simp, ?_, ?_, ?_⟩
    · rw [flattened, empty]
      rfl
    · rw [flattened, empty]
      rfl
    · exact List.forall_mem_singleton.mpr (.inl (List.forall_mem_nil _))
  · refine ⟨blocks.flatten, empty, flattened _, flattened _, fun item hi => ?_⟩
    obtain ⟨block, hb, hi⟩ := List.mem_flatten.mp hi
    exact each block hb item hi

mutual

/-- A member of a record is written as items, under names of their own in the select list. -/
theorem Named.itemizes (n : Named) {pieces grouped : List Piece} (flat : n.expression.IsFlat)
    (served : Served schema offer (.expression n.expression))
    (hp : namedPieces n.name n.expression (n.expression.pieces native .projected) = .ok pieces)
    (hg : n.expression.pieces native .grouped = .ok grouped) :
    ∃ items, Itemizes native n.expression.listed items pieces grouped := by
  obtain ⟨name, e⟩ := n
  cases e with
  | entity e =>
    obtain rfl := Except.ok.inj hp
    obtain rfl := Except.ok.inj hg
    exact ⟨_, e.itemizes_own (served.here.whole e rfl) name⟩
  | entityReference tableAlias own e =>
    obtain rfl := Except.ok.inj hp
    obtain rfl := Except.ok.inj hg
    obtain rfl := flat.here.2 _ _ _ rfl
    exact ⟨_, e.itemizes_exposed (served.here.whole e rfl) tableAlias name⟩
  | compound members =>
    obtain ⟨ps, hps, h⟩ := bind_eq_ok.mp hp
    obtain rfl := pure_eq_ok.mp h
    obtain ⟨gs, hgs, h⟩ := bind_eq_ok.mp hg
    obtain rfl := pure_eq_ok.mp h
    have inner := List.forall_mem_map.mp fun _ hs => And.intro (flat.slot hs) (served.slot hs)
    obtain ⟨blocks, each, rfl, rfl⟩ := blocks_of_membersPieces members inner hps hgs
    exact itemizes_blocks (fun block hb => (each block hb).1) fun block hb => (each block hb).2
  | named n => exact absurd rfl flat.here.1.1
  | _ =>
    obtain ⟨rendered, hr, h⟩ := bind_eq_ok.mp hp
    obtain rfl := pure_eq_ok.mp h
    exact ⟨_, Expr.itemizes_value rfl (some _) hr hg⟩
termination_by structural n

theorem blocks_of_membersPieces (members : List Named) {ps gs : List (List Piece)}
    (each : ∀ n ∈ members, n.expression.IsFlat ∧ Served schema offer (.expression n.expression))
    (hp : membersPieces native .projected members = .ok ps)
    (hg : membersPieces native .grouped members = .ok gs) :
    ∃ blocks : List (List Item),
      (∀ block ∈ blocks, block ≠ [] ∧ ∀ item ∈ block, item.IsAmong native (membersListed members)) ∧
      ps = (blocks.map fun block => commas (block.map Item.pieces)) ∧
      gs = blocks.map fun block => commas (block.map Item.value) := by
  cases members with
  | nil =>
    obtain rfl := Except.ok.inj hp
    obtain rfl := Except.ok.inj hg
    exact ⟨[], List.forall_mem_nil _, rfl, rfl⟩
  | cons n rest =>
    obtain ⟨here, below⟩ := List.forall_mem_cons.mp each
    obtain ⟨name, e⟩ := n
    simp only [membersPieces, bind_eq_ok, pure_eq_ok] at hp hg
    obtain ⟨p, hpe, ps, hps, rfl⟩ := hp
    obtain ⟨g, hge, gs, hgs, rfl⟩ := hg
    obtain ⟨items, itemizes⟩ := Named.itemizes ⟨name, e⟩ here.1 here.2 hpe hge
    obtain ⟨blocks, each, rfl, rfl⟩ := blocks_of_membersPieces rest below hps hgs
    refine ⟨items :: blocks, List.forall_mem_cons.mpr ⟨⟨itemizes.nonempty, fun item hi => ?_⟩,
      fun block hb => ⟨(each block hb).1, fun item hi => ?_⟩⟩, ?_, ?_⟩
    · exact (itemizes.each item hi).mono (List.subset_append_left _ _)
    · exact ((each block hb).2 item hi).mono (List.subset_append_right _ _)
    · rw [List.map_cons, ← itemizes.projected_eq]
    · rw [List.map_cons, ← itemizes.grouped_eq]
termination_by structural members

end

/-- A key is selected and grouped by as the same items. -/
theorem Expr.itemizes {e : Expr} {pieces grouped : List Piece} (flat : e.IsFlat)
    (served : Served schema offer (.expression e)) (hp : e.pieces native .projected = .ok pieces)
    (hg : e.pieces native .grouped = .ok grouped) :
    ∃ items, Itemizes native e.listed items pieces grouped := by
  cases e with
  | entity e => exact Named.itemizes ⟨e.name, _⟩ flat served hp hg
  | entityReference tableAlias name e => exact Named.itemizes ⟨name, _⟩ flat served hp hg
  | compound members => exact Named.itemizes ⟨none, _⟩ flat served hp hg
  | named n => exact absurd rfl flat.here.1.1
  | _ =>
    have value := itemizes_value rfl none hp hg
    rw [Item.pieces, List.append_nil] at value
    exact ⟨_, value⟩

end Items

mutual

theorem Named.inside_listed {root : Node} (n : Named)
    (h : Node.Inside root (.expression n.expression)) :
    ∀ e ∈ n.expression.listed, Node.Inside root (.expression e) := by
  obtain ⟨name, e⟩ := n
  cases e with
  | compound members =>
    exact inside_membersListed members fun n hn => h.operand (Expr.member_mem_operands hn)
  | _ => exact List.forall_mem_singleton.mpr h
termination_by structural n

theorem inside_membersListed {root : Node} (members : List Named)
    (h : ∀ n ∈ members, Node.Inside root (.expression n.expression)) :
    ∀ e ∈ membersListed members, Node.Inside root (.expression e) := by
  cases members with
  | nil => exact List.forall_mem_nil _
  | cons n rest =>
    obtain ⟨here, below⟩ := List.forall_mem_cons.mp h
    obtain ⟨name, e⟩ := n
    exact List.forall_mem_append.mpr
      ⟨Named.inside_listed ⟨name, e⟩ here, inside_membersListed rest below⟩
termination_by structural members

end

section Texts

variable {schema : Schema} {native : Bool} {offer : Offer}

/-- What is selected stands again behind `GROUP BY`, without the names. -/
theorem Statement.SelectsKey.pieces {s : Statement} (h : s.SelectsKey)
    (served : Served schema offer (.expression s.projection)) {pieces : List Piece}
    (written : s.pieces native false = .ok pieces) :
    ∃ (items : List Item) (tables : List (JoinKind × Source × List Piece))
        (condition : Option (List Piece)) (orderings : List (List Piece)),
      pieces = statementPieces false none (commas (items.map Item.pieces)) tables condition
        (some (commas (items.map Item.value))) orderings ∧
      ∀ item ∈ items, item.IsAmong native s.projection.listed := by
  obtain ⟨flat, key, unlimited, repeated⟩ := h
  obtain ⟨projection, tables, condition, grouping, orderings, top, isDistinct, rowNumber, rowOffset,
    shape⟩ := s
  obtain rfl : grouping = some projection := key
  obtain rfl : top = none := unlimited
  obtain rfl : isDistinct = false := repeated
  simp only [Statement.pieces, optionPieces, bind_eq_ok, pure_eq_ok] at written
  obtain ⟨top, ht, p, hp, sources, -, filter, -, _, ⟨g, hg, rfl⟩, written⟩ := written
  obtain rfl := Except.ok.inj ht
  rw [Bool.false_and, if_neg Bool.false_ne_true] at written
  obtain ⟨order, -, written⟩ := bind_eq_ok.mp written
  obtain ⟨items, itemizes⟩ := projection.itemizes flat served hp hg
  refine ⟨items, sources, filter, order, ?_, itemizes.each⟩
  rw [← itemizes.projected_eq, ← itemizes.grouped_eq]
  exact (pure_eq_ok.mp written).symm

theorem groupsBy_statementPieces (dialect : Dialect) (items : List Item)
    (tables : List (JoinKind × Source × List Piece)) (condition : Option (List Piece))
    (orderings : List (List Piece)) :
    ∃ before, (ofPieces dialect (statementPieces false none (commas (items.map Item.pieces)) tables
        condition (some (commas (items.map Item.value))) orderings)).GroupsBy dialect items
      (textAfter dialect before (commas (items.map Item.value))) := by
  let source := clause " FROM " (attached tables) ++ clause " WHERE " condition
  let ending := if orderings.isEmpty then [] else [Piece.text " ORDER BY "] ++ commas orderings
  have pieces (selected key : List Piece) :
      statementPieces false none selected tables condition (some key) orderings =
        Piece.text "SELECT " ::
          (selected ++ (source ++ Piece.text " GROUP BY " :: (key ++ ending))) := by
    simp [statementPieces, source, ending, clause]
  rw [pieces]
  refine ⟨(handed items ++ values source).length, tables, condition, textAfter dialect
    (handed items ++ values source ++ handed items).length ending, values source, values ending,
    ?_, ?_, rfl, ?_⟩
  · rw [ofPieces_eq]
    refine (textAfter_clauses _ source _ ending).trans ?_
    rw [values_selected, values_keys]
  · by_cases none : orderings.isEmpty = true
    · exact .inl (by simp [ending, none, textAfter, spelled])
    · exact .inr (by simp [ending, none, textAfter_cons, Piece.spelling])
  · simp only [values_ofPieces, values_cons, values_append, values_selected, values_keys,
      value?_text, Option.toList_none, List.nil_append, List.append_assoc]

end Texts

/-- Whether a node is an expression. -/
def Node.IsExpression : Node → Prop
  | .expression _ => True
  | .statement _ => False

/-- Whether no statement is found in an expression, which must not be deeper than a number. -/
def Expr.isFreeTo : Nat → Expr → Bool
  | 0, _ => false
  | depth + 1, e => e.kind ≠ .subStatement && e.slots.all fun slot => slot.2.isFreeTo depth

theorem Expr.everywhere_of_isFreeTo {depth : Nat} {e : Expr} (h : e.isFreeTo depth = true) :
    (Node.expression e).Everywhere Node.IsExpression := by
  induction depth generalizing e with
  | zero => cases h
  | succ depth ih =>
    rw [isFreeTo, Bool.and_eq_true, decide_eq_true_iff, List.all_eq_true] at h
    refine .ofSlots ?_ trivial fun slot hs => ih (h.2 slot hs)
    rintro s rfl
    exact h.1 rfl

/-- What preparation makes is flat if it holds no statement. -/
theorem Node.Everywhere.flat_of_prepared {n : Node} (h : n.Everywhere Node.IsPrepared)
    (free : n.Everywhere Node.IsExpression) : n.Flat := by
  refine (h.ready_of_prepared.and (h.and free)).mono ?_
  rintro n ⟨ready, prepared, here⟩
  cases n with
  | statement s => exact here
  | expression e =>
    refine ⟨ready, ?_⟩
    rintro _ _ _ rfl
    rcases prepared.1 with h | h <;> cases h

end Comprehension.Sql

namespace Comprehension.Query.Model

open Command
open Method.Registry (defaults)
open Sql (Node Statement)

variable {schema : Schema} {options : Options} {m : Model}

/-- Without operators, what is prepared from a query that yields groups selects the key. -/
theorem prepare_group {key element : Expr} {row : Sql.Expr} {t : Statement} {f₀ f₁ f : Fresh}
    (grouped : m.yield = .group key element) (bare : m.operators = [])
    (prepared : m.prepareRow defaults [] f₀ = .ok (row, f₁))
    (h : m.prepare defaults f₀ = .ok (t, f)) :
    t.projection = row ∧ t.grouping = some row ∧ t.top = none ∧ t.isDistinct = false := by
  obtain ⟨scope, body, f₃, u, f₄, clauses, yielded, applied⟩ := prepareIn_eq_ok h
  rw [bare] at applied
  obtain ⟨rfl, rfl⟩ := Supply.pure_eq_ok.mp applied
  rw [grouped] at yielded
  obtain ⟨e, keyed, rfl⟩ := Yield.prepare_group_eq_ok yielded
  obtain ⟨⟨scope', body'⟩, f₂, same, keyed'⟩ := Supply.bind_eq_ok.mp prepared
  rw [clauses] at same
  cases same
  rw [grouped] at keyed'
  cases keyed.symm.trans keyed'
  exact ⟨rfl, rfl, rfl, rfl⟩

theorem selectsKey_of_statement {key element : Expr} {row : Sql.Expr} {s : Statement}
    {f₀ f₁ f : Fresh} (grouped : m.yield = .group key element) (bare : m.operators = [])
    (prepared : m.prepareRow defaults [] f₀ = .ok (row, f₁))
    (free : (Node.expression row).Everywhere Node.IsExpression)
    (h : m.statement defaults (Mapping.ofSchema schema) options f₀ = .ok (s, f)) :
    s.SelectsKey := by
  obtain ⟨t, f₂, statement, resolved⟩ := Supply.bind_eq_ok.mp h
  obtain ⟨rfl, key, unlimited, repeated⟩ := prepare_group grouped bare prepared statement
  have ground := ground_of_prepare statement
  have whole := ground.prepared _ List.mem_cons_self
  have slot : Node.expression t.projection ∈ (Node.statement t).children := by
    simp [Node.children, Statement.slots, Statement.clauses, key]
  have selects : t.SelectsKey :=
    ⟨(whole.child slot).flat_of_prepared free, key, unlimited, repeated⟩
  exact selects.resolve whole.ready_of_prepared (ground.apart _ List.mem_cons_self)
    (ground.issued _ List.mem_cons_self) resolved

/-- A query that yields groups selects their key. Behind `GROUP BY` the same items are written, but
for their names: they hand over the same values under further numbers, and if they hand over none
the text is the same too. Unless a record is part of a value, no item holds a comma or a name
outside parentheses. -/
theorem compile_group {key element : Expr} {row : Sql.Expr} {f₁ : Fresh} {c : Command}
    (grouped : m.yield = .group key element) (bare : m.operators = [])
    (prepared : m.prepareRow defaults [] {} = .ok (row, f₁))
    (free : (Node.expression row).Everywhere Node.IsExpression)
    (compiled : m.compile defaults (Mapping.ofSchema schema) options = .ok c) :
    ∃ s f items keyText,
      m.statement defaults (Mapping.ofSchema schema) options {} = .ok (s, f) ∧
      c.GroupsBy options.dialect items keyText ∧
      (handed items = [] → keyText = textAfter options.dialect 0 (commas (items.map Item.value))) ∧
      ((∀ e ∈ s.projection.listed, e.isPlain = true) → ∀ item ∈ items, IsOneValue item.value) := by
  obtain ⟨⟨s, f⟩, statement, compiled⟩ := Outcome.bind_eq_ok.mp compiled
  obtain ⟨pieces, written, compiled⟩ := Outcome.bind_eq_ok.mp compiled
  obtain rfl := Outcome.pure_eq_ok.mp compiled
  have selects := selectsKey_of_statement grouped bare prepared free statement
  have inside : Node.Inside (.statement s) (.expression s.projection) := .projection .root
  obtain ⟨offer, mapped⟩ := (mapped_of_statement statement).inside inside
  have served := mapped.served
  rw [Node.unnamed_of_kind selects.flat.here.1.1] at served
  obtain ⟨items, tables, condition, orderings, rfl, among⟩ := selects.pieces served written
  obtain ⟨before, groups⟩ :=
    Sql.groupsBy_statementPieces options.dialect items tables condition orderings
  refine ⟨s, f, items, _, statement, groups, fun none => ?_, fun plain item hi => ?_⟩
  · exact textAfter_of_values_eq_nil (by rw [values_keys, none]) _ _
  · rcases among item hi with one | ⟨e, he, few, written⟩
    · exact one
    · exact isOneValue_of_statement statement
        (Sql.Named.inside_listed ⟨none, s.projection⟩ inside e he)
        (fun many => absurd many (by simp [few])) (plain e he) written

/-- The cooks of some kitchens, grouped by their names, their kitchens and later keys. -/
def cooksByPlace : Model :=
  let cook : Expr := .item "c" (.entity "Cook")
  let name : Expr := .member cook "FirstName" .string
  let kitchen : Expr := .member cook "Kitchen" (.entity "Kitchen")
  let later : Expr :=
    .binary .add (.member cook "ID" .int32) (.constant (.int 10) .int32) .int32
  { main := .table "c" "Cook"
    clauses := [.filter (.binary .equal (.member kitchen "Name" .string)
        (.constant (.string "Grill") .string) .boolean), .orderBy [⟨name, .asc⟩]]
    yield := .group (.record [("N", name), ("K", kitchen), ("Later", later)]) cook
    operators := [] }

theorem cooksByPlace_group :
    ∃ row f₁ c items keyText,
      cooksByPlace.prepareRow defaults [] {} = .ok (row, f₁) ∧
      (Node.expression row).Everywhere Node.IsExpression ∧
      cooksByPlace.compile defaults (Mapping.ofSchema .restaurant) {} = .ok c ∧
      c.text = "SELECT [t0].[FirstName] AS [N], [t1].[ID] AS [K_ID], [t1].[Name] AS [K_Name], " ++
        "([t0].[ID] + @1) AS [Later] FROM [CookTable] AS [t0] LEFT OUTER JOIN [KitchenTable] AS " ++
        "[t1] ON [t0].[KitchenID] = [t1].[ID] WHERE ([t1].[Name] = @2) GROUP BY " ++
        "[t0].[FirstName], [t1].[ID], [t1].[Name], ([t0].[ID] + @3) ORDER BY [t0].[FirstName] ASC" ∧
      c.GroupsBy .sqlServer items keyText ∧ ∀ item ∈ items, IsOneValue item.value := by
  have prepared : (cooksByPlace.prepareRow defaults [] {}).toOption.any
      (fun result => result.1.isFreeTo 4) = true := by
    decide +kernel
  have compiled : (cooksByPlace.compile defaults (Mapping.ofSchema .restaurant) {}).toOption.any
      (fun c => c.text =
        "SELECT [t0].[FirstName] AS [N], [t1].[ID] AS [K_ID], [t1].[Name] AS [K_Name], " ++
        "([t0].[ID] + @1) AS [Later] FROM [CookTable] AS [t0] LEFT OUTER JOIN [KitchenTable] AS " ++
        "[t1] ON [t0].[KitchenID] = [t1].[ID] WHERE ([t1].[Name] = @2) GROUP BY " ++
        "[t0].[FirstName], [t1].[ID], [t1].[Name], ([t0].[ID] + @3) ORDER BY [t0].[FirstName] ASC")
      = true := by
    decide +kernel
  have plain : (cooksByPlace.statement defaults (Mapping.ofSchema .restaurant) {} {}).toOption.any
      (fun result => result.1.projection.listed.all Sql.Expr.isPlain) = true := by
    decide +kernel
  obtain ⟨⟨row, f₁⟩, prepared, free⟩ := Outcome.exists_of_any prepared
  have free := Sql.Expr.everywhere_of_isFreeTo free
  obtain ⟨c, compiled, text⟩ := Outcome.exists_of_any compiled
  obtain ⟨⟨s, f⟩, statement, plain⟩ := Outcome.exists_of_any plain
  obtain ⟨s', f', items, keyText, same, groups, -, one⟩ :=
    compile_group rfl rfl prepared free compiled
  cases statement.symm.trans same
  exact ⟨row, f₁, c, items, keyText, prepared, free, compiled, of_decide_eq_true text, groups,
    one (List.all_eq_true.mp plain)⟩

/-- The cooks, grouped by keys that are ten further on. -/
def cooksByLaterKey : Model :=
  let cook : Expr := .item "c" (.entity "Cook")
  { main := .table "c" "Cook"
    clauses := []
    yield := .group
      (.binary .add (.member cook "ID" .int32) (.constant (.int 10) .int32) .int32) cook
    operators := [] }

/-- The cooks, grouped by how many kitchens there are. -/
def cooksByKitchenCount : Model :=
  let kitchens : Model :=
    { main := .table "k" "Kitchen"
      clauses := []
      yield := .select (.item "k" (.entity "Kitchen"))
      operators := [.count] }
  { main := .table "c" "Cook"
    clauses := []
    yield := .group (.subQuery kitchens) (.item "c" (.entity "Cook"))
    operators := [] }

/-- A constant in a key is handed over twice under two numbers, and the tables of a query in it have
two aliases each. -/
theorem group_respelled :
    (∃ c, cooksByLaterKey.compile defaults (Mapping.ofSchema .restaurant) {} = .ok c ∧
      c.text = "SELECT ([t0].[ID] + @1) FROM [CookTable] AS [t0] GROUP BY ([t0].[ID] + @2)" ∧
      c.parameters = [⟨"@1", .int 10⟩, ⟨"@2", .int 10⟩]) ∧
    ∃ c, cooksByKitchenCount.compile defaults (Mapping.ofSchema .restaurant) {} = .ok c ∧
      c.text = "SELECT (SELECT COUNT(*) FROM [KitchenTable] AS [t1]) FROM [CookTable] AS [t0] " ++
        "GROUP BY (SELECT COUNT(*) FROM [KitchenTable] AS [t2])" := by
  have numbered : (cooksByLaterKey.compile defaults (Mapping.ofSchema .restaurant) {}).toOption.any
      (fun c => c.text =
          "SELECT ([t0].[ID] + @1) FROM [CookTable] AS [t0] GROUP BY ([t0].[ID] + @2)" ∧
        c.parameters = [⟨"@1", .int 10⟩, ⟨"@2", .int 10⟩]) = true := by
    decide +kernel
  have counted : (cooksByKitchenCount.compile defaults (Mapping.ofSchema .restaurant)
      {}).toOption.any (fun c => c.text =
        "SELECT (SELECT COUNT(*) FROM [KitchenTable] AS [t1]) FROM [CookTable] AS [t0] " ++
        "GROUP BY (SELECT COUNT(*) FROM [KitchenTable] AS [t2])") = true := by
    decide +kernel
  obtain ⟨c, compiled, same⟩ := Outcome.exists_of_any numbered
  obtain ⟨c', compiled', text⟩ := Outcome.exists_of_any counted
  obtain ⟨numbers, twice⟩ := of_decide_eq_true same
  exact ⟨⟨c, compiled, numbers, twice⟩, c', compiled', of_decide_eq_true text⟩

end Comprehension.Query.Model
