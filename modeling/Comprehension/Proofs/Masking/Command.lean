import Comprehension.Compile
import Comprehension.Proofs.Masking.Prepare
import Comprehension.Proofs.Numbering

/-!
The values of constants never reach the text of a command: queries that differ only in them are
compiled to the same text with parameters of the same names, or neither is compiled.
-/
namespace Comprehension

namespace Command

def Piece.masked : Piece → Piece
  | .parameter value => .parameter value.masked
  | piece => piece

theorem Piece.masked_of_value? {piece : Piece} (h : piece.value? = none) : piece.masked = piece := by
  cases piece with
  | parameter value => cases h
  | _ => rfl

/-- Pieces without parameters are their own mask. -/
theorem map_masked_of_values {pieces : List Piece} (h : values pieces = []) :
    pieces.map Piece.masked = pieces := by
  induction pieces with
  | nil => rfl
  | cons piece rest ih =>
    simp only [values_cons, List.append_eq_nil_iff, Option.toList_eq_nil_iff] at h
    rw [List.map_cons, Piece.masked_of_value? h.1, ih h.2]

@[simp] theorem masked_text (text : String) : (Piece.text text).masked = .text text := rfl

@[simp] theorem masked_identifier (name : String) : (Piece.identifier name).masked = .identifier name := rfl

@[simp] theorem masked_literal (text : String) : (Piece.literal text).masked = .literal text := rfl

@[simp] theorem masked_operatorPiece (op : Sql.BinaryOp) :
    (operatorPiece op).masked = operatorPiece op := Piece.masked_of_value? (by simp)

@[simp] theorem map_masked_valuePieces (value : Value) :
    (valuePieces value).map Piece.masked = valuePieces value.masked := by
  unfold valuePieces
  rw [Value.isNull_masked]
  split <;> rfl

@[simp] theorem map_masked_commas (items : List (List Piece)) :
    (commas items).map Piece.masked = commas (items.map (List.map Piece.masked)) := by
  induction items with
  | nil => rfl
  | cons first rest ih =>
    cases rest with
    | nil => simp [commas, List.intercalate]
    | cons second rest => simpa [commas_cons_cons] using ih

@[simp] theorem map_masked_escapePieces (value : List Piece) :
    (escapePieces value).map Piece.masked = escapePieces (value.map Piece.masked) := by
  simp [escapePieces, Method.Pattern.wildcards]

@[simp] theorem map_masked_clause (keyword : String) (pieces : Option (List Piece)) :
    (clause keyword pieces).map Piece.masked = clause keyword (pieces.map (List.map Piece.masked)) := by
  cases pieces <;> simp [clause]

theorem map_masked_orderingPieces (e : Sql.Expr) (direction : Query.Direction)
    (rendered : List Piece) :
    (orderingPieces e direction rendered).map Piece.masked =
      orderingPieces e.masked direction (rendered.map Piece.masked) := by
  cases e with
  | named n => simp [orderingPieces]
  | _ => simp [orderingPieces, Sql.Expr.masked]

theorem attachment_masked (source : Sql.Source) (kind : Sql.JoinKind) :
    attachment source.masked kind = attachment source kind := by
  cases source <;> cases kind <;> simp [Sql.Source.masked, attachment]

/-- A table with its pieces, both masked. -/
def tableMasked (table : Sql.JoinKind × Sql.Source × List Piece) :
    Sql.JoinKind × Sql.Source × List Piece :=
  (table.1, table.2.1.masked, table.2.2.map Piece.masked)

theorem map_masked_attached (tables : List (Sql.JoinKind × Sql.Source × List Piece)) :
    (attached tables).map (List.map Piece.masked) = attached (tables.map tableMasked) := by
  cases tables with
  | nil => rfl
  | cons first rest =>
    simp [attached, tableMasked, List.map_flatMap, List.flatMap_map, attachment_masked]

/-- Renderings of which the second is the mask of the first, or both fail. -/
def MasksPieces (x y : Rendered) : Prop :=
  Outcome.Agree (fun a b => b = a.map Piece.masked) x y

theorem masksPieces_namedPieces (name : Option String) (e : Sql.Expr) {x y : Rendered}
    (h : MasksPieces x y) : MasksPieces (namedPieces name e x) (namedPieces name e.masked y) := by
  have written (e e' : Sql.Expr) :
      MasksPieces
        (do return (← x) ++ [Piece.text " AS ", .identifier (Sql.Named.effectiveName ⟨name, e⟩)])
        (do return (← y) ++
          [Piece.text " AS ", .identifier (Sql.Named.effectiveName ⟨name, e'⟩)]) := by
    refine .bind h ?_
    rintro pieces _ rfl
    exact .ok (by simp [Sql.Named.effectiveName])
  cases e with
  | entity e => exact .ok (map_masked_of_values (by simp)).symm
  | entityReference tableAlias n e => exact .ok (map_masked_of_values (by simp)).symm
  | compound members => exact h
  | named n =>
    cases n
    exact written _ _
  | _ => exact written _ _

theorem masksPieces_predicatePieces (native : Bool) (e : Sql.Expr) {x y : Rendered}
    (h : MasksPieces x y) :
    MasksPieces (predicatePieces native e x) (predicatePieces native e.masked y) := by
  unfold predicatePieces
  rw [Sql.Expr.isPredicate_masked]
  split
  · exact h
  · exact .error _ _

theorem isNullableColumn_masked (e : Sql.Expr) : isNullableColumn e.masked = isNullableColumn e := by
  cases e <;> simp [Sql.Expr.masked, isNullableColumn]

theorem masksPieces_binaryPieces (op : Sql.BinaryOp) (left right : Sql.Expr) {l l' r r' : Rendered}
    (hl : MasksPieces l l') (hr : MasksPieces r r') :
    MasksPieces (binaryPieces op left right l r)
      (binaryPieces op left.masked right.masked l' r') := by
  unfold binaryPieces
  simp only [Sql.Expr.isNullConstant_masked, isNullableColumn_masked]
  split
  · have subject : MasksPieces (if right.isNullConstant then l else r)
        (if right.isNullConstant then l' else r') := by
      split
      · exact hl
      · exact hr
    cases nullRule op with
    | bothNull =>
      refine .bind subject ?_
      rintro pieces _ rfl
      exact .ok (by simp)
    | oneNull =>
      refine .bind subject ?_
      rintro pieces _ rfl
      exact .ok (by simp)
    | never => exact .ok rfl
  · refine .bind hl ?_
    rintro l _ rfl
    refine .bind hr ?_
    rintro r _ rfl
    refine .ok ?_
    split
    · cases nullRule op <;> simp
    · simp

/-- Commands of the same text with parameters of the same names. -/
def SameText (c c' : Command) : Prop :=
  c.text = c'.text ∧ c.parameters.map (·.name) = c'.parameters.map (·.name)

theorem values_map_masked (pieces : List Piece) :
    values (pieces.map Piece.masked) = (values pieces).map Value.masked := by
  induction pieces with
  | nil => rfl
  | cons piece rest ih => cases piece <;> simp [Piece.masked, ih]

/-- What a piece looks like in a text does not depend on its value. -/
theorem spelled_map_masked (dialect : Dialect) (before : Nat) (pieces : List Piece) :
    (spelled dialect before (pieces.map Piece.masked)).map (·.2) =
      (spelled dialect before pieces).map (·.2) := by
  induction pieces generalizing before with
  | nil => rfl
  | cons piece rest ih => cases piece <;> simp [spelled, Piece.masked, Piece.spelling, ih]

theorem ofPieces_sameText (dialect : Dialect) {pieces pieces' : List Piece}
    (h : pieces.map Piece.masked = pieces'.map Piece.masked) :
    SameText (ofPieces dialect pieces) (ofPieces dialect pieces') := by
  have count : (values pieces).length = (values pieces').length := by
    simpa [values_map_masked] using congrArg (fun pieces => (values pieces).length) h
  constructor
  · simp only [ofPieces_eq]
    rw [← spelled_map_masked dialect 0 pieces, h, spelled_map_masked]
  · rw [names_ofPieces, names_ofPieces, count]

end Command

namespace Sql

open Command

theorem map_masked_statementPieces (isDistinct : Bool) (top : Option (List Piece))
    (projection : List Piece) (tables : List (JoinKind × Source × List Piece))
    (condition grouping : Option (List Piece)) (orderings : List (List Piece)) :
    (statementPieces isDistinct top projection tables condition grouping orderings).map
        Piece.masked =
      statementPieces isDistinct (top.map (List.map Piece.masked)) (projection.map Piece.masked)
        (tables.map tableMasked) (condition.map (List.map Piece.masked))
        (grouping.map (List.map Piece.masked)) (orderings.map (List.map Piece.masked)) := by
  simp only [statementPieces, List.map_append, map_masked_clause, map_masked_attached]
  congr 1
  · cases isDistinct <;> cases top <;> simp
  · cases orderings <;> simp

mutual

/-- The pieces of a masked expression are the masked pieces of the expression. -/
theorem Expr.pieces_masked (native : Bool) (listing : Listing) (e : Expr) :
    MasksPieces (e.pieces native listing) (e.masked.pieces native listing) := by
  cases e with
  | column c => exact .ok (map_masked_of_values (by simp)).symm
  | constant value type => exact .ok (map_masked_valuePieces value).symm
  | literal l => exact .ok (map_masked_of_values (by simp)).symm
  | customText text type => exact .ok rfl
  | entity e =>
    refine .ok (map_masked_of_values ?_).symm
    split <;> simp
  | entityReference tableAlias name e => exact .ok (map_masked_of_values (by simp)).symm
  | entityConstant type value primaryKey =>
    simpa only [Expr.masked, Expr.pieces] using primaryKey.pieces_masked native .projected
  | binary op left right type =>
    simp only [Expr.masked, Expr.pieces]
    exact masksPieces_binaryPieces op left right (left.pieces_masked native .projected)
      (right.pieces_masked native .projected)
  | like expression pattern =>
    simp only [Expr.masked, Expr.pieces]
    refine .bind (expression.pieces_masked native .projected) ?_
    rintro expression _ rfl
    refine .bind (pattern.pieces_masked native .projected) ?_
    rintro pattern _ rfl
    exact .ok (by simp)
  | likeEscape value =>
    simp only [Expr.masked, Expr.pieces]
    refine .bind (value.pieces_masked native .projected) ?_
    rintro value _ rfl
    exact .ok (by simp)
  | logical op left right =>
    simp only [Expr.masked, Expr.pieces]
    refine .bind (masksPieces_predicatePieces native left (left.pieces_masked native .projected)) ?_
    rintro left _ rfl
    refine .bind (masksPieces_predicatePieces native right (right.pieces_masked native .projected)) ?_
    rintro right _ rfl
    exact .ok (by simp)
  | not operand =>
    simp only [Expr.masked, Expr.pieces]
    refine .bind
      (masksPieces_predicatePieces native operand (operand.pieces_masked native .projected)) ?_
    rintro operand _ rfl
    exact .ok (by simp)
  | case branches otherwise type =>
    simp only [Expr.masked, Expr.pieces]
    refine .bind (branchesPieces_masked native branches) ?_
    rintro branches _ rfl
    refine .bind (optionPieces_masked native .projected otherwise) ?_
    rintro otherwise _ rfl
    exact .ok (by simp)
  | function name args type isPredicate =>
    simp only [Expr.masked, Expr.pieces]
    refine .bind (argsPieces_masked native args) ?_
    rintro args _ rfl
    exact .ok (by simp)
  | convert target expression type =>
    simp only [Expr.masked, Expr.pieces]
    refine .bind (expression.pieces_masked native .projected) ?_
    rintro expression _ rfl
    exact .ok (by simp)
  | aggregation function expression type =>
    simp only [Expr.masked, Expr.pieces]
    split
    · exact .ok rfl
    · refine .bind (expression.pieces_masked native .projected) ?_
      rintro expression _ rfl
      exact .ok (by simp)
  | rowNumber orderings =>
    simp only [Expr.masked, Expr.pieces]
    refine .bind (orderingsPieces_masked native orderings) ?_
    rintro orderings _ rfl
    exact .ok (by simp)
  | named n =>
    obtain ⟨name, expression⟩ := n
    simp only [Expr.masked, Expr.pieces]
    cases listing with
    | grouped => exact expression.pieces_masked native .grouped
    | projected =>
      exact masksPieces_namedPieces name expression (expression.pieces_masked native .projected)
  | compound members =>
    simp only [Expr.masked, Expr.pieces]
    refine .bind (membersPieces_masked native listing members) ?_
    rintro members _ rfl
    exact .ok (by simp)
  | subStatement statement =>
    simp only [Expr.masked, Expr.pieces]
    refine .bind (statement.pieces_masked native true) ?_
    rintro pieces _ rfl
    exact .ok (by simp)
  | tableReference key type => exact .error _ _
  | member source name type =>
    simp only [Expr.masked, Expr.pieces]
    exact .error _ _
  | navigation e member type => exact .error _ _
  | call c => exact .error _ _

theorem optionPieces_masked (native : Bool) (listing : Listing) (e : Option Expr) :
    Outcome.Agree (fun a b => b = a.map (List.map Piece.masked)) (optionPieces native listing e)
      (optionPieces native listing (optionMasked e)) := by
  cases e with
  | none => exact .ok rfl
  | some e =>
    simp only [optionMasked, optionPieces]
    refine .bind (e.pieces_masked native listing) ?_
    rintro pieces _ rfl
    exact .ok rfl

theorem argsPieces_masked (native : Bool) (args : List Expr) :
    Outcome.Agree (fun a b => b = a.map (List.map Piece.masked)) (argsPieces native args)
      (argsPieces native (argsMasked args)) := by
  cases args with
  | nil => exact .ok rfl
  | cons e rest =>
    simp only [argsMasked, argsPieces]
    refine .bind (e.pieces_masked native .projected) ?_
    rintro first _ rfl
    refine .bind (argsPieces_masked native rest) ?_
    rintro rest _ rfl
    exact .ok rfl

theorem branchesPieces_masked (native : Bool) (branches : List (Expr × Expr)) :
    MasksPieces (branchesPieces native branches)
      (branchesPieces native (branchesMasked branches)) := by
  cases branches with
  | nil => exact .ok rfl
  | cons branch rest =>
    obtain ⟨test, value⟩ := branch
    simp only [branchesMasked, branchesPieces]
    refine .bind (masksPieces_predicatePieces native test (test.pieces_masked native .projected)) ?_
    rintro test _ rfl
    refine .bind (value.pieces_masked native .projected) ?_
    rintro value _ rfl
    refine .bind (branchesPieces_masked native rest) ?_
    rintro rest _ rfl
    exact .ok (by simp)

theorem orderingsPieces_masked (native : Bool) (orderings : List Ordering) :
    Outcome.Agree (fun a b => b = a.map (List.map Piece.masked)) (orderingsPieces native orderings)
      (orderingsPieces native (orderingsMasked orderings)) := by
  cases orderings with
  | nil => exact .ok rfl
  | cons ordering rest =>
    obtain ⟨e, direction⟩ := ordering
    simp only [orderingsMasked, orderingsPieces]
    refine .bind (e.pieces_masked native .projected) ?_
    rintro first _ rfl
    refine .bind (orderingsPieces_masked native rest) ?_
    rintro rest _ rfl
    exact .ok (by simp [map_masked_orderingPieces])

theorem membersPieces_masked (native : Bool) (listing : Listing) (members : List Named) :
    Outcome.Agree (fun a b => b = a.map (List.map Piece.masked))
      (membersPieces native listing members)
      (membersPieces native listing (membersMasked members)) := by
  cases members with
  | nil => exact .ok rfl
  | cons member rest =>
    obtain ⟨name, e⟩ := member
    simp only [membersMasked, membersPieces]
    have later := membersPieces_masked native listing rest
    cases listing with
    | grouped =>
      refine .bind (e.pieces_masked native .grouped) ?_
      rintro first _ rfl
      refine .bind later ?_
      rintro rest _ rfl
      exact .ok rfl
    | projected =>
      refine .bind (masksPieces_namedPieces name e (e.pieces_masked native .projected)) ?_
      rintro first _ rfl
      refine .bind later ?_
      rintro rest _ rfl
      exact .ok rfl

theorem Source.pieces_masked (native : Bool) (source : Source) :
    MasksPieces (source.pieces native) (source.masked.pieces native) := by
  cases source with
  | table itemType tableName tableAlias => exact .ok rfl
  | unresolved itemType => exact .error _ _
  | statement tableAlias statement =>
    simp only [Source.masked, Source.pieces]
    refine .bind (statement.pieces_masked native true) ?_
    rintro pieces _ rfl
    exact .ok (by simp)

theorem joinsPieces_masked (native : Bool) (joins : List Join) :
    MasksPieces (joinsPieces native joins) (joinsPieces native (joinsMasked joins)) := by
  cases joins with
  | nil => exact .ok rfl
  | cons join rest =>
    obtain ⟨member, kind, link, joins⟩ := join
    cases link with
    | unresolved origin name =>
      simp only [joinsMasked, Link.masked, joinsPieces]
      exact .error _ _
    | resolved source leftKey rightKey =>
      simp only [joinsMasked, Link.masked, joinsPieces]
      refine .bind (source.pieces_masked native) ?_
      rintro source _ rfl
      refine .bind (leftKey.pieces_masked native .projected) ?_
      rintro leftKey _ rfl
      refine .bind (rightKey.pieces_masked native .projected) ?_
      rintro rightKey _ rfl
      refine .bind (joinsPieces_masked native joins) ?_
      rintro below _ rfl
      refine .bind (joinsPieces_masked native rest) ?_
      rintro rest _ rfl
      exact .ok (by simp)

theorem tablesPieces_masked (native : Bool) (tables : List Table) :
    Outcome.Agree (fun a b => b = a.map tableMasked) (tablesPieces native tables)
      (tablesPieces native (tablesMasked tables)) := by
  cases tables with
  | nil => exact .ok rfl
  | cons table rest =>
    obtain ⟨key, source, kind, joins⟩ := table
    simp only [tablesMasked, tablesPieces]
    refine .bind (source.pieces_masked native) ?_
    rintro first _ rfl
    refine .bind (joinsPieces_masked native joins) ?_
    rintro joins _ rfl
    refine .bind (tablesPieces_masked native rest) ?_
    rintro rest _ rfl
    exact .ok (by simp [tableMasked])

theorem Statement.pieces_masked (native nested : Bool) (s : Statement) :
    MasksPieces (s.pieces native nested) (s.masked.pieces native nested) := by
  obtain ⟨projection, tables, condition, grouping, orderings, top, isDistinct, rowNumber, rowOffset,
    shape⟩ := s
  have limited : (optionMasked top).isSome = top.isSome := by cases top <;> rfl
  simp only [Statement.masked, Statement.pieces, limited]
  refine .bind (optionPieces_masked native .projected top) ?_
  rintro topPieces _ rfl
  refine .bind (projection.pieces_masked native .projected) ?_
  rintro projection _ rfl
  refine .bind (tablesPieces_masked native tables) ?_
  rintro tables _ rfl
  refine .bind (conditionPieces_masked native condition) ?_
  rintro condition _ rfl
  refine .bind (optionPieces_masked native .grouped grouping) ?_
  rintro grouping _ rfl
  have written := fun orderings =>
    (map_masked_statementPieces isDistinct topPieces projection tables condition grouping orderings).symm
  split
  · exact .ok (written [])
  · refine .bind (orderingsPieces_masked native orderings) ?_
    rintro orderings _ rfl
    exact .ok (written orderings)

theorem conditionPieces_masked (native : Bool) (e : Option Expr) :
    Outcome.Agree (fun a b => b = a.map (List.map Piece.masked)) (conditionPieces native e)
      (conditionPieces native (optionMasked e)) := by
  cases e with
  | none => exact .ok rfl
  | some e =>
    simp only [optionMasked, conditionPieces]
    refine .bind (masksPieces_predicatePieces native e (e.pieces_masked native .projected)) ?_
    rintro pieces _ rfl
    exact .ok rfl

end

theorem Statement.command_agree (dialect : Dialect) (native : Bool) {s s' : Statement}
    (h : s.masked = s'.masked) :
    Outcome.Agree SameText (s.command dialect native) (s'.command dialect native) := by
  have rendered := (s.pieces_masked native false).trans (h ▸ (s'.pieces_masked native false).symm)
  refine .bind rendered ?_
  rintro pieces pieces' ⟨_, rfl, same⟩
  exact .ok (ofPieces_sameText dialect same)

end Sql

namespace Query.Model

open Method.Registry (defaults)

/-- Queries that differ only in the values of their constants are compiled to commands of one text,
with as many parameters under the same names, or neither is compiled. -/
theorem compile_sameText (schema : Schema) (options : Options) {m m' : Model}
    (h : m.masked = m'.masked) (free : m.languageFree = true) (free' : m'.languageFree = true) :
    Outcome.Agree
      (fun c c' => c.text = c'.text ∧ c.parameters.length = c'.parameters.length ∧
        c.parameters.map (·.name) = c'.parameters.map (·.name))
      (m.compile defaults (Mapping.ofSchema schema) options)
      (m'.compile defaults (Mapping.ofSchema schema) options) := by
  have prepared := prepare_agree h free free'
  have resolved : Supply.Agree (fun s s' => s.masked = s'.masked)
      (m.statement defaults (Mapping.ofSchema schema) options)
      (m'.statement defaults (Mapping.ofSchema schema) options) :=
    .bind prepared fun _ _ same => Sql.Statement.resolve_agree schema options.nativeBoolean same
  refine .bind (resolved {}) ?_
  rintro ⟨s, f⟩ ⟨s', f'⟩ ⟨same, -⟩
  refine (Sql.Statement.command_agree options.dialect options.nativeBoolean same).mono ?_
  rintro c c' ⟨text, names⟩
  exact ⟨text, by simpa using congrArg List.length names, names⟩

/-- Some cooks of a kitchen by a part of their name. -/
def cooksNamed (part : String) (kitchen count : Int) : Model :=
  let cook := Expr.item "c" (.entity "Cook")
  { main := .table "c" "Cook"
    clauses :=
      [.filter (.call (some (.member cook "FirstName" .string)) "String" "Contains" [.string]
        [.constant (.string part) .string] .boolean),
       .filter (.binary .equal (.member cook "Kitchen" (.entity "Kitchen"))
        (.constant (.entity "Kitchen" (.int kitchen)) (.entity "Kitchen")) .boolean)]
    yield := .select (.member cook "FirstName" .string)
    operators := [.take (.constant (.int count) .int32)] }

/-- The part of the name, the kitchen and the count differ, the text of the command does not. -/
theorem cooksNamed_sameText :
    ∃ text,
      ((cooksNamed "Jo" 1 10).compile defaults (Mapping.ofSchema .restaurant) {}).map (·.text) =
        .ok text ∧
      ((cooksNamed "' OR 1=1 --%" 7 3).compile defaults (Mapping.ofSchema .restaurant) {}).map
        (·.text) = .ok text := by
  have masks : (cooksNamed "Jo" 1 10).masked = (cooksNamed "' OR 1=1 --%" 7 3).masked := rfl
  have same := compile_sameText .restaurant {} masks rfl rfl
  have compiled : ((cooksNamed "Jo" 1 10).compile defaults (Mapping.ofSchema .restaurant)
      {}).toOption.isSome = true := by
    decide +kernel
  generalize (cooksNamed "Jo" 1 10).compile defaults (Mapping.ofSchema .restaurant) {} = left,
    (cooksNamed "' OR 1=1 --%" 7 3).compile defaults (Mapping.ofSchema .restaurant) {} = right
    at same compiled ⊢
  cases same with
  | ok h => exact ⟨_, rfl, congrArg Except.ok h.1.symm⟩
  | error e e' => cases compiled

end Query.Model

end Comprehension
