import Comprehension.Proofs.Inside
import Comprehension.Proofs.Phrase

/-!
Statements are written as phrases. Each node is written with separators around the phrases of its
operands, and the words that it writes by itself are known beforehand.
-/
namespace Comprehension.Sql

open Command
open Lexing
open Outcome (bind_eq_ok pure_eq_ok)

/-- Whether a node writes known words only, and addresses columns with a property. -/
def Node.Legible (C : Offer) : Node → Prop
  | .expression e => e.IsWorded ∧ ∀ read ∈ e.reads, C read.1 read.2
  | .statement _ => True

variable {C : Offer}

section Words

theorem separator_function {name : String} (h : name ∈ Vocabulary.functions) :
    divides (name ++ "(") = true ∧
      ∀ depth, nesting depth (marks (name ++ "(")) = some (depth + 1) := by
  have listed : ∀ name ∈ Vocabulary.functions, divides (name ++ "(") = true ∧
      nesting 0 (marks (name ++ "(")) = some 1 := by decide
  obtain ⟨separator, opens⟩ := listed name h
  refine ⟨separator, fun depth => ?_⟩
  simpa [Nat.add_comm] using nesting_shift depth opens

theorem separator_convert {target : String} (h : target ∈ Vocabulary.types) :
    divides ("CONVERT(" ++ target ++ ", ") = true ∧
      ∀ depth, nesting depth (marks ("CONVERT(" ++ target ++ ", ")) = some (depth + 1) := by
  have listed : ∀ target ∈ Vocabulary.types, divides ("CONVERT(" ++ target ++ ", ") = true ∧
      nesting 0 (marks ("CONVERT(" ++ target ++ ", ")) = some 1 := by decide
  obtain ⟨separator, opens⟩ := listed target h
  refine ⟨separator, fun depth => ?_⟩
  simpa [Nat.add_comm] using nesting_shift depth opens

/-- The language of a full-text search is a number, or stands between quotes. -/
theorem balanced_customText {text : String} (h : Kind.customText.Knows text) :
    Balanced C [.text text] := by
  have language {spelled : String} (h : Reads 0 0 [] spelled.toList) :
      Balanced C [.text ("LANGUAGE " ++ spelled)] := by
    have whole : Reads 0 0 [] ([] ++ ("LANGUAGE ".toList ++ spelled.toList)) :=
      (reads_nil 0).separated rfl rfl h
    refine balanced_text (by simpa using whole) fun same => ?_
    have first := congrArg (fun text => text.toList.head?) same
    simp at first
  rcases h with h | ⟨code, rfl⟩ | ⟨name, rfl⟩
  · have listed : ∀ text ∈ Vocabulary.dateParts, isSeparator text = true ∧
        nesting 0 (marks text) = some 0 ∧ text ≠ "." := by decide
    obtain ⟨separator, level, whole⟩ := listed text h
    exact balanced_text (reads_separator separator level) whole
  · exact language (reads_int code 0)
  · exact language (reads_enclosed .quote name 0)

end Words

section Builders

/-- A binary expression is a phrase between parentheses, unless nothing can satisfy it. -/
theorem enclosed_binaryPieces {op : BinaryOp} {left right : Expr} {l r : Rendered}
    (hl : ∀ ps, l = .ok ps → Balanced C ps) (hr : ∀ ps, r = .ok ps → Balanced C ps)
    {pieces : List Piece} (h : binaryPieces op left right l r = .ok pieces) :
    pieces = [.text "(1 <> 1)"] ∨ ∃ inner closing, Balanced C inner ∧ divides closing = true ∧
      (∀ depth, nesting (depth + 1) (marks closing) = some depth) ∧
      pieces = [Piece.text "("] ++ inner ++ [Piece.text closing] := by
  unfold binaryPieces at h
  split at h
  · have subject : ∀ ps, (if right.isNullConstant then l else r) = .ok ps → Balanced C ps := by
      intro ps hps
      split at hps
      · exact hl ps hps
      · exact hr ps hps
    dsimp only at h
    split at h
    · obtain ⟨ps, hps, h⟩ := bind_eq_ok.mp h
      exact .inr ⟨ps, _, subject ps hps, rfl, fun _ => rfl, (pure_eq_ok.mp h).symm⟩
    · obtain ⟨ps, hps, h⟩ := bind_eq_ok.mp h
      exact .inr ⟨ps, _, subject ps hps, rfl, fun _ => rfl, (pure_eq_ok.mp h).symm⟩
    · exact .inl (Except.ok.inj h).symm
  · obtain ⟨ls, hls, h⟩ := bind_eq_ok.mp h
    obtain ⟨rs, hrs, h⟩ := bind_eq_ok.mp h
    obtain rfl := pure_eq_ok.mp h
    have first := hl ls hls
    have second := hr rs hrs
    have plain : Balanced C (ls ++ ([Piece.text " ", operatorPiece op, .text " "] ++ rs)) :=
      first.append fun depth =>
        .more rfl rfl (.more (word_operatorPiece op) rfl rfl (second depth))
    rw [List.append_assoc [Piece.text "("]]
    refine .inr ⟨_, ")", fun depth => ?_, rfl, fun _ => rfl, rfl⟩
    simp only [List.append_assoc]
    split
    · split
      · simp only [List.append_assoc]
        exact .lead rfl rfl ((first _).append (.more rfl rfl
          ((second _).append (.more rfl rfl (plain depth)))))
      · simp only [List.append_assoc]
        exact .lead rfl rfl ((first _).append (.more rfl rfl
          ((second _).append (.more rfl rfl ((first _).append (.more rfl rfl
            ((second _).append (.more rfl rfl (plain depth)))))))))
      · exact plain depth
    · exact plain depth

theorem balanced_binaryPieces {op : BinaryOp} {left right : Expr} {l r : Rendered}
    (hl : ∀ ps, l = .ok ps → Balanced C ps) (hr : ∀ ps, r = .ok ps → Balanced C ps)
    {pieces : List Piece} (h : binaryPieces op left right l r = .ok pieces) :
    Balanced C pieces := by
  rcases enclosed_binaryPieces hl hr h with rfl | ⟨inner, closing, balanced, divided, closes, rfl⟩
  · exact balanced_text ⟨_, rfl, rfl, by decide, rfl⟩ (by decide)
  · exact balanced.enclose rfl divided (fun _ => rfl) closes

theorem balanced_namedPieces {name : Option String} {e : Expr} {rendered : Rendered}
    (h : ∀ ps, rendered = .ok ps → Balanced C ps) (read : ∀ read ∈ e.reads, C read.1 read.2)
    {pieces : List Piece} (hp : namedPieces name e rendered = .ok pieces) : Balanced C pieces := by
  unfold namedPieces at hp
  split at hp
  · obtain rfl := Except.ok.inj hp
    exact balanced_entityPieces fun c hc =>
      read (_, _) (List.mem_flatMap.mpr ⟨c, hc, List.mem_cons_self⟩)
  · obtain rfl := Except.ok.inj hp
    exact balanced_entityPieces fun c hc => read (_, _) (List.mem_map_of_mem hc)
  · exact h pieces hp
  · obtain ⟨ps, hps, hp⟩ := bind_eq_ok.mp hp
    obtain rfl := pure_eq_ok.mp hp
    exact (h ps hps).append fun depth => .more rfl rfl (.word (.identifier _))

end Builders

variable {native : Bool} {root : Node}

mutual

theorem Expr.balanced_pieces (legible : ∀ n, Node.Inside root n → n.Legible C) :
    ∀ (e : Expr) (listing : Listing) (pieces : List Piece), Node.Inside root (.expression e) →
      e.pieces native listing = .ok pieces → Balanced C pieces
  | .column c, listing, pieces, inside, h => by
    obtain rfl := Except.ok.inj h
    exact balanced_word (.column fun _ => (legible _ inside).2 _ List.mem_cons_self)
  | .constant value type, listing, pieces, inside, h => by
    obtain rfl := Except.ok.inj h
    exact balanced_valuePieces value
  | .literal l, listing, pieces, inside, h => by
    obtain rfl := Except.ok.inj h
    exact balanced_literalPiece l
  | .customText text type, listing, pieces, inside, h => by
    obtain rfl := Except.ok.inj h
    exact balanced_customText ((legible _ inside).1 text rfl)
  | .entity e, listing, pieces, inside, h => by
    simp only [Expr.pieces, Except.ok.injEq] at h
    subst h
    have read := (legible _ inside).2
    split
    · exact balanced_groupedEntity fun c hc =>
        read (_, _) (List.mem_flatMap.mpr ⟨c, hc, by simp⟩)
    · exact balanced_entityPieces fun c hc =>
        read (_, _) (List.mem_flatMap.mpr ⟨c, hc, List.mem_cons_self⟩)
  | .entityReference tableAlias name e, listing, pieces, inside, h => by
    obtain rfl := Except.ok.inj h
    exact balanced_entityPieces fun c hc =>
      (legible _ inside).2 (_, _) (List.mem_map_of_mem hc)
  | .entityConstant type value key, listing, pieces, inside, h =>
    key.balanced_pieces legible .projected pieces (inside.operand List.mem_cons_self) h
  | .binary op left right type, listing, pieces, inside, h => by
    have hl := fun ps => left.balanced_pieces legible .projected ps
      (inside.operand (by simp [Expr.operands, Expr.slots]))
    have hr := fun ps => right.balanced_pieces legible .projected ps
      (inside.operand (by simp [Expr.operands, Expr.slots]))
    exact balanced_binaryPieces hl hr h
  | .like expression pattern, listing, pieces, inside, h => by
    simp only [Expr.pieces, bind_eq_ok, pure_eq_ok] at h
    obtain ⟨v, hv, p, hp, rfl⟩ := h
    have value := expression.balanced_pieces legible _ v
      (inside.operand (by simp [Expr.operands, Expr.slots])) hv
    have against := pattern.balanced_pieces legible _ p
      (inside.operand (by simp [Expr.operands, Expr.slots])) hp
    intro depth
    simp only [List.append_assoc]
    exact (value depth).append (.more rfl rfl ((against depth).append
      (.more rfl rfl (.word (.literal _)))))
  | .likeEscape value, listing, pieces, inside, h => by
    simp only [Expr.pieces, bind_eq_ok, pure_eq_ok] at h
    obtain ⟨v, hv, rfl⟩ := h
    exact balanced_escapePieces
      (value.balanced_pieces legible _ v (inside.operand List.mem_cons_self) hv)
  | .logical op left right, listing, pieces, inside, h => by
    simp only [Expr.pieces, bind_eq_ok, pure_eq_ok] at h
    obtain ⟨l, hl, r, hr, rfl⟩ := h
    have first := left.balanced_pieces legible _ l
      (inside.operand (by simp [Expr.operands, Expr.slots])) (pieces_of_predicatePieces hl)
    have second := right.balanced_pieces legible _ r
      (inside.operand (by simp [Expr.operands, Expr.slots])) (pieces_of_predicatePieces hr)
    intro depth
    simp only [List.append_assoc]
    cases op <;> exact .lead rfl rfl ((first _).append (.more rfl rfl
      ((second _).append (.last rfl rfl))))
  | .not operand, listing, pieces, inside, h => by
    simp only [Expr.pieces, bind_eq_ok, pure_eq_ok] at h
    obtain ⟨o, ho, rfl⟩ := h
    have balanced := operand.balanced_pieces legible _ o (inside.operand List.mem_cons_self)
      (pieces_of_predicatePieces ho)
    exact balanced.enclose rfl rfl (fun _ => rfl) fun _ => rfl
  | .case branches otherwise type, listing, pieces, inside, h => by
    simp only [Expr.pieces, bind_eq_ok, pure_eq_ok] at h
    obtain ⟨b, hb, o, ho, rfl⟩ := h
    have tests := trails_branchesPieces legible branches b (fun branch mem => by
      obtain ⟨test, value⟩ := Expr.branch_mem_operands mem otherwise type
      exact ⟨inside.operand test, inside.operand value⟩) hb
    have default : Trails C (clause " ELSE " o) :=
      trails_clause rfl (fun _ => rfl) (balanced_optionPieces legible otherwise _ o
        (fun e he => inside.operand (by simp [Expr.operands, Expr.slots, he])) ho)
    intro depth
    simp only [List.append_assoc]
    refine .lead rfl rfl ?_
    exact ((tests depth).append ((default depth).append (.last rfl rfl))).phrase
  | .function name args type isPredicate, listing, pieces, inside, h => by
    simp only [Expr.pieces, bind_eq_ok, pure_eq_ok] at h
    obtain ⟨a, ha, rfl⟩ := h
    have items := balanced_argsPieces legible args a (fun e he =>
      inside.operand (by simp [Expr.operands, Expr.slots, he])) ha
    obtain ⟨separator, opens⟩ := separator_function ((legible _ inside).1 name rfl)
    exact (balanced_commas items).enclose separator rfl opens fun _ => rfl
  | .convert target expression type, listing, pieces, inside, h => by
    simp only [Expr.pieces, bind_eq_ok, pure_eq_ok] at h
    obtain ⟨v, hv, rfl⟩ := h
    have value := expression.balanced_pieces legible _ v (inside.operand List.mem_cons_self) hv
    obtain ⟨separator, opens⟩ := separator_convert ((legible _ inside).1 target rfl)
    exact value.enclose separator rfl opens fun _ => rfl
  | .aggregation function expression type, listing, pieces, inside, h => by
    simp only [Expr.pieces] at h
    split at h
    · obtain rfl := Except.ok.inj h
      exact balanced_text ⟨_, rfl, rfl, by decide, rfl⟩ (by decide)
    · simp only [bind_eq_ok, pure_eq_ok] at h
      obtain ⟨v, hv, rfl⟩ := h
      have value := expression.balanced_pieces legible _ v (inside.operand List.mem_cons_self) hv
      cases function <;> exact value.enclose rfl rfl (fun _ => rfl) fun _ => rfl
  | .rowNumber orderings, listing, pieces, inside, h => by
    simp only [Expr.pieces, bind_eq_ok, pure_eq_ok] at h
    obtain ⟨o, ho, rfl⟩ := h
    have items := balanced_orderingsPieces legible orderings o (fun ordering mem =>
      inside.operand (Expr.ordering_mem_operands mem)) ho
    exact (balanced_commas items).enclose rfl rfl (fun _ => rfl) fun _ => rfl
  | .named ⟨name, expression⟩, listing, pieces, inside, h => by
    have below := inside.operand (List.mem_singleton_self expression)
    cases listing with
    | grouped => exact expression.balanced_pieces legible .grouped pieces below h
    | projected =>
      exact balanced_namedPieces (fun ps => expression.balanced_pieces legible .projected ps below)
        (legible _ below).2 h
  | .compound members, listing, pieces, inside, h => by
    simp only [Expr.pieces, bind_eq_ok, pure_eq_ok] at h
    obtain ⟨m, hm, rfl⟩ := h
    exact balanced_commas (balanced_membersPieces legible members listing m (fun n mem =>
      inside.operand (Expr.member_mem_operands mem)) hm)
  | .subStatement statement, listing, pieces, inside, h => by
    simp only [Expr.pieces, bind_eq_ok, pure_eq_ok] at h
    obtain ⟨s, hs, rfl⟩ := h
    have nested := statement.balanced_pieces legible true s (inside.part List.mem_cons_self) hs
    exact nested.enclose rfl rfl (fun _ => rfl) fun _ => rfl
  | .tableReference _ _, _, _, _, h | .member _ _ _, _, _, _, h | .navigation _ _ _, _, _, _, h
  | .call _, _, _, _, h => nomatch h

theorem balanced_optionPieces (legible : ∀ n, Node.Inside root n → n.Legible C) :
    ∀ (e : Option Expr) (listing : Listing) (pieces : Option (List Piece)),
      (∀ e', e = some e' → Node.Inside root (.expression e')) →
      optionPieces native listing e = .ok pieces → ∀ ps, pieces = some ps → Balanced C ps
  | none, _, pieces, _, h, ps, hps => by
    obtain rfl := Except.ok.inj h
    cases hps
  | some e, listing, pieces, inside, h, ps, hps => by
    simp only [optionPieces, bind_eq_ok, pure_eq_ok] at h
    obtain ⟨p, hp, rfl⟩ := h
    obtain rfl := Option.some.inj hps
    exact e.balanced_pieces legible listing p (inside e rfl) hp

theorem balanced_argsPieces (legible : ∀ n, Node.Inside root n → n.Legible C) :
    ∀ (args : List Expr) (pieces : List (List Piece)),
      (∀ e ∈ args, Node.Inside root (.expression e)) → argsPieces native args = .ok pieces →
      ∀ item ∈ pieces, Balanced C item
  | [], pieces, _, h => by
    obtain rfl := Except.ok.inj h
    exact nofun
  | e :: rest, pieces, inside, h => by
    simp only [argsPieces, bind_eq_ok, pure_eq_ok] at h
    obtain ⟨p, hp, r, hr, rfl⟩ := h
    obtain ⟨here, below⟩ := List.forall_mem_cons.mp inside
    exact List.forall_mem_cons.mpr ⟨e.balanced_pieces legible _ p here hp,
      balanced_argsPieces legible rest r below hr⟩

theorem trails_branchesPieces (legible : ∀ n, Node.Inside root n → n.Legible C) :
    ∀ (branches : List (Expr × Expr)) (pieces : List Piece),
      (∀ branch ∈ branches,
        Node.Inside root (.expression branch.1) ∧ Node.Inside root (.expression branch.2)) →
      branchesPieces native branches = .ok pieces → Trails C pieces
  | [], pieces, _, h => by
    obtain rfl := Except.ok.inj h
    exact fun _ => .nothing
  | (test, value) :: rest, pieces, inside, h => by
    simp only [branchesPieces, bind_eq_ok, pure_eq_ok] at h
    obtain ⟨t, ht, v, hv, r, hr, rfl⟩ := h
    obtain ⟨⟨insideTest, insideValue⟩, below⟩ := List.forall_mem_cons.mp inside
    have tested := test.balanced_pieces legible _ t insideTest (pieces_of_predicatePieces ht)
    have yielded := value.balanced_pieces legible _ v insideValue hv
    have later := trails_branchesPieces legible rest r below hr
    intro depth
    simp only [List.append_assoc]
    exact .more rfl rfl ((tested depth).append (.more rfl rfl
      ((yielded depth).append (later depth))))

theorem balanced_orderingsPieces (legible : ∀ n, Node.Inside root n → n.Legible C) :
    ∀ (orderings : List Ordering) (pieces : List (List Piece)),
      (∀ o ∈ orderings, Node.Inside root (.expression o.expression)) →
      orderingsPieces native orderings = .ok pieces → ∀ item ∈ pieces, Balanced C item
  | [], pieces, _, h => by
    obtain rfl := Except.ok.inj h
    exact nofun
  | ⟨e, direction⟩ :: rest, pieces, inside, h => by
    simp only [orderingsPieces, bind_eq_ok, pure_eq_ok] at h
    obtain ⟨p, hp, r, hr, rfl⟩ := h
    obtain ⟨here, below⟩ := List.forall_mem_cons.mp inside
    exact List.forall_mem_cons.mpr
      ⟨balanced_orderingPieces e direction (e.balanced_pieces legible _ p here hp),
        balanced_orderingsPieces legible rest r below hr⟩

theorem balanced_membersPieces (legible : ∀ n, Node.Inside root n → n.Legible C) :
    ∀ (members : List Named) (listing : Listing) (pieces : List (List Piece)),
      (∀ n ∈ members, Node.Inside root (.expression n.expression)) →
      membersPieces native listing members = .ok pieces → ∀ item ∈ pieces, Balanced C item
  | [], _, pieces, _, h => by
    obtain rfl := Except.ok.inj h
    exact nofun
  | ⟨name, e⟩ :: rest, .grouped, pieces, inside, h => by
    simp only [membersPieces, bind_eq_ok, pure_eq_ok] at h
    obtain ⟨p, hp, r, hr, rfl⟩ := h
    obtain ⟨here, below⟩ := List.forall_mem_cons.mp inside
    exact List.forall_mem_cons.mpr ⟨e.balanced_pieces legible .grouped p here hp,
      balanced_membersPieces legible rest .grouped r below hr⟩
  | ⟨name, e⟩ :: rest, .projected, pieces, inside, h => by
    simp only [membersPieces, bind_eq_ok, pure_eq_ok] at h
    obtain ⟨p, hp, r, hr, rfl⟩ := h
    obtain ⟨here, below⟩ := List.forall_mem_cons.mp inside
    have first := balanced_namedPieces
      (fun ps => e.balanced_pieces legible .projected ps here) (legible _ here).2 hp
    exact List.forall_mem_cons.mpr
      ⟨first, balanced_membersPieces legible rest .projected r below hr⟩

theorem Source.balanced_pieces (legible : ∀ n, Node.Inside root n → n.Legible C) :
    ∀ (source : Source) (pieces : List Piece),
      (∀ s, source.statement? = some s → Node.Inside root (.statement s)) →
      source.pieces native = .ok pieces → Balanced C pieces
  | .table itemType tableName tableAlias, pieces, _, h => by
    obtain rfl := Except.ok.inj h
    exact fun _ => .more (.identifier tableName) rfl rfl (.word (.identifier tableAlias))
  | .statement tableAlias s, pieces, inside, h => by
    simp only [Source.pieces, bind_eq_ok, pure_eq_ok] at h
    obtain ⟨ps, hps, rfl⟩ := h
    have nested := s.balanced_pieces legible true ps (inside s rfl) hps
    intro depth
    simp only [List.append_assoc]
    exact .lead rfl rfl ((nested _).append (.more rfl rfl (.word (.identifier tableAlias))))
  | .unresolved _, _, _, h => nomatch h

theorem trails_joinsPieces (legible : ∀ n, Node.Inside root n → n.Legible C) :
    ∀ (joins : List Join) (pieces : List Piece),
      (∀ link ∈ joinLinks joins, ∀ n ∈ Node.ofLink link, Node.Inside root n) →
      joinsPieces native joins = .ok pieces → Trails C pieces
  | [], pieces, _, h => by
    obtain rfl := Except.ok.inj h
    exact fun _ => .nothing
  | ⟨_, _, .unresolved _ _, _⟩ :: _, _, _, h => nomatch h
  | ⟨_, kind, .resolved source leftKey rightKey, joins⟩ :: rest, pieces, inside, h => by
    simp only [joinsPieces, bind_eq_ok, pure_eq_ok] at h
    obtain ⟨s, hs, l, hl, r, hr, b, hb, t, ht, rfl⟩ := h
    rw [joinLinks, Join.links, List.cons_append, List.forall_mem_cons, List.forall_mem_append] at inside
    obtain ⟨here, below, later⟩ := inside
    have joined := source.balanced_pieces legible s (fun s nested => here _ (by
      simp [Node.ofLink, nested])) hs
    have left := leftKey.balanced_pieces legible _ l (here _ (by simp [Node.ofLink])) hl
    have right := rightKey.balanced_pieces legible _ r (here _ (by simp [Node.ofLink])) hr
    have deeper := trails_joinsPieces legible joins b below hb
    have others := trails_joinsPieces legible rest t later ht
    intro depth
    simp only [List.append_assoc]
    cases kind <;> exact .more rfl rfl ((joined depth).append (.more rfl rfl
      ((left depth).append (.more rfl rfl
        ((right depth).append ((deeper depth).append (others depth)))))))

theorem balanced_tablesPieces (legible : ∀ n, Node.Inside root n → n.Legible C) :
    ∀ (tables : List Table) (pieces : List (JoinKind × Source × List Piece)),
      (∀ table ∈ tables, ∀ s, table.source.statement? = some s → Node.Inside root (.statement s)) →
      (∀ link ∈ tableLinks tables, ∀ n ∈ Node.ofLink link, Node.Inside root n) →
      tablesPieces native tables = .ok pieces → ∀ table ∈ pieces, Balanced C table.2.2
  | [], pieces, _, _, h => by
    obtain rfl := Except.ok.inj h
    exact nofun
  | ⟨key, source, kind, joins⟩ :: rest, pieces, sources, links, h => by
    simp only [tablesPieces, bind_eq_ok, pure_eq_ok] at h
    obtain ⟨s, hs, j, hj, r, hr, rfl⟩ := h
    rw [tableLinks_cons, List.forall_mem_append] at links
    obtain ⟨here, below⟩ := List.forall_mem_cons.mp sources
    refine List.forall_mem_cons.mpr ⟨?_, balanced_tablesPieces legible rest r below links.2 hr⟩
    exact (source.balanced_pieces legible s here hs).append
      (trails_joinsPieces legible joins j links.1 hj)

/-- A statement is written as a phrase that closes what it opens. -/
theorem Statement.balanced_pieces (legible : ∀ n, Node.Inside root n → n.Legible C) :
    ∀ (s : Statement) (nested : Bool) (pieces : List Piece), Node.Inside root (.statement s) →
      s.pieces native nested = .ok pieces → Balanced C pieces
  | ⟨projection, tables, condition, grouping, orderings, top, isDistinct, rowNumber, rowOffset,
      shape⟩, nested, pieces, inside, h => by
    simp only [Statement.pieces, bind_eq_ok] at h
    obtain ⟨t, ht, p, hp, f, hf, c, hc, g, hg, h⟩ := h
    have clause (position : Position) {e : Expr} (h : (position, e) ∈ Statement.clauses _) :=
      inside.clause h
    have limited := balanced_optionPieces legible top _ t (fun e he =>
      clause .singleValue (by simp [Statement.clauses, he])) ht
    have selected := projection.balanced_pieces legible _ p inside.projection hp
    have sources := balanced_tablesPieces legible tables f
      (fun table mem s hs => inside.source mem hs) (fun link mem n hn => inside.link mem hn) hf
    have filtered := balanced_conditionPieces legible condition c (fun e he =>
      clause .predicate (by simp [Statement.clauses, he])) hc
    have grouped := balanced_optionPieces legible grouping _ g (fun e he =>
      clause .value (by simp [Statement.clauses, he])) hg
    split at h
    · obtain rfl := pure_eq_ok.mp h
      exact balanced_statementPieces limited selected sources filtered grouped nofun
    · obtain ⟨o, ho, h⟩ := bind_eq_ok.mp h
      obtain rfl := pure_eq_ok.mp h
      have ordered := balanced_orderingsPieces legible orderings o (fun ordering mem =>
        clause .singleValue (by
          have : (Position.singleValue, ordering.expression) ∈
            orderings.map fun o => (Position.singleValue, o.expression) := List.mem_map_of_mem mem
          simp [Statement.clauses, this])) ho
      exact balanced_statementPieces limited selected sources filtered grouped ordered

theorem balanced_conditionPieces (legible : ∀ n, Node.Inside root n → n.Legible C) :
    ∀ (e : Option Expr) (pieces : Option (List Piece)),
      (∀ e', e = some e' → Node.Inside root (.expression e')) →
      conditionPieces native e = .ok pieces → ∀ ps, pieces = some ps → Balanced C ps
  | none, pieces, _, h, ps, hps => by
    obtain rfl := Except.ok.inj h
    cases hps
  | some e, pieces, inside, h, ps, hps => by
    simp only [conditionPieces, bind_eq_ok, pure_eq_ok] at h
    obtain ⟨p, hp, rfl⟩ := h
    obtain rfl := Option.some.inj hps
    exact e.balanced_pieces legible _ p (inside e rfl) (pieces_of_predicatePieces hp)

end

end Comprehension.Sql
