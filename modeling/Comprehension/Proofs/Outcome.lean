import Comprehension.Resolved.Navigation

/-!
Outcomes of computations. The first lemmas say how a computation that succeeded was put together;
`Agree` compares two computations that need not succeed, but that fail together, and `Parallel` their
errors as well; `Ends` says what one computation ends with, be it a result or an error.
-/
namespace Comprehension

namespace Outcome

theorem bind_eq_ok {ε α β : Type} {x : Except ε α} {k : α → Except ε β} {b : β} :
    (x >>= k) = .ok b ↔ ∃ a, x = .ok a ∧ k a = .ok b := by
  cases x with
  | error e => simp [bind, Except.bind]
  | ok a => simp [bind, Except.bind]

theorem pure_eq_ok {ε α : Type} {a b : α} : (pure a : Except ε α) = .ok b ↔ a = b := by
  simp [pure, Except.pure]

def error? {ε α : Type} : Except ε α → Option ε
  | .error e => some e
  | .ok _ => none

theorem error?_eq_some {ε α : Type} {x : Except ε α} {e : ε} : error? x = some e ↔ x = .error e := by
  cases x <;> simp [error?]

/-- A result that passes a check is there. -/
theorem exists_of_any {ε α : Type} {x : Except ε α} {check : α → Bool}
    (h : x.toOption.any check = true) : ∃ a, x = .ok a ∧ check a = true := by
  cases x with
  | error e => cases h
  | ok a => exact ⟨a, rfl, h⟩

/-- Both fail, or both succeed with related results. -/
inductive Agree {ε α β : Type} (R : α → β → Prop) : Except ε α → Except ε β → Prop where
  | ok {a : α} {b : β} (h : R a b) : Agree R (.ok a) (.ok b)
  | error (e e' : ε) : Agree R (.error e) (.error e')

theorem Agree.bind {ε α β γ δ : Type} {R : α → β → Prop} {Q : γ → δ → Prop} {x : Except ε α}
    {y : Except ε β} {k : α → Except ε γ} {l : β → Except ε δ} (hx : Agree R x y)
    (hk : ∀ a b, R a b → Agree Q (k a) (l b)) : Agree Q (x >>= k) (y >>= l) := by
  cases hx with
  | ok h => exact hk _ _ h
  | error e e' => exact .error e e'

theorem Agree.symm {ε α β : Type} {R : α → β → Prop} {x : Except ε α} {y : Except ε β}
    (h : Agree R x y) : Agree (fun b a => R a b) y x := by
  cases h with
  | ok h => exact .ok h
  | error e e' => exact .error e' e

theorem Agree.trans {ε α β γ : Type} {R : α → β → Prop} {Q : β → γ → Prop} {x : Except ε α}
    {y : Except ε β} {z : Except ε γ} (h : Agree R x y) (h' : Agree Q y z) :
    Agree (fun a c => ∃ b, R a b ∧ Q b c) x z := by
  cases h with
  | ok h =>
    cases h' with
    | ok h' => exact .ok ⟨_, h, h'⟩
  | error e e' =>
    cases h' with
    | error _ e'' => exact .error e e''

theorem Agree.map {ε α β : Type} (m : α → β) (x : Except ε α) :
    Agree (fun a b => b = m a) x (x.map m) := by
  cases x with
  | ok a => exact .ok rfl
  | error e => exact .error e e

theorem Agree.mono {ε α β : Type} {R Q : α → β → Prop} {x : Except ε α} {y : Except ε β}
    (h : Agree R x y) (hq : ∀ a b, R a b → Q a b) : Agree Q x y := by
  cases h with
  | ok h => exact .ok (hq _ _ h)
  | error e e' => exact .error e e'

/-- Both succeed with related results, or both fail with related errors. -/
inductive Parallel {ε α β : Type} (E : ε → ε → Prop) (R : α → β → Prop) :
    Except ε α → Except ε β → Prop where
  | ok {a : α} {b : β} (h : R a b) : Parallel E R (.ok a) (.ok b)
  | error {e e' : ε} (h : E e e') : Parallel E R (.error e) (.error e')

theorem Parallel.bind {ε α β γ δ : Type} {E : ε → ε → Prop} {R : α → β → Prop} {Q : γ → δ → Prop}
    {x : Except ε α} {y : Except ε β} {k : α → Except ε γ} {l : β → Except ε δ}
    (hx : Parallel E R x y) (hk : ∀ a b, R a b → Parallel E Q (k a) (l b)) :
    Parallel E Q (x >>= k) (y >>= l) := by
  cases hx with
  | ok h => exact hk _ _ h
  | error h => exact .error h

theorem Parallel.bindSame {ε α β γ : Type} {E : ε → ε → Prop} {Q : β → γ → Prop} {x y : Except ε α}
    {k : α → Except ε β} {l : α → Except ε γ} (hx : Parallel E Eq x y)
    (hk : ∀ a, Parallel E Q (k a) (l a)) : Parallel E Q (x >>= k) (y >>= l) :=
  hx.bind fun a _ same => same ▸ hk a

protected theorem Parallel.refl {ε α : Type} {E : ε → ε → Prop} (same : ∀ e, E e e)
    (x : Except ε α) : Parallel E Eq x x := by
  cases x with
  | ok a => exact .ok rfl
  | error e => exact .error (same e)

/-- Computations with the same results and related errors are the same once errors are taken for
what they have in common. -/
theorem Parallel.mapError_eq {ε ε' α : Type} {g : ε → ε'} {x y : Except ε α}
    (h : Parallel (fun e e' => g e = g e') Eq x y) : x.mapError g = y.mapError g := by
  cases h with
  | ok h => exact congrArg Except.ok h
  | error h => exact congrArg Except.error h

/-- What a computation ends with: its result has one property, its error another. -/
inductive Ends {ε α : Type} (P : ε → Prop) (Q : α → Prop) : Except ε α → Prop where
  | ok {a : α} (h : Q a) : Ends P Q (.ok a)
  | error {e : ε} (h : P e) : Ends P Q (.error e)

theorem Ends.bind {ε α β : Type} {P : ε → Prop} {Q : α → Prop} {R : β → Prop} {x : Except ε α}
    {k : α → Except ε β} (hx : Ends P Q x) (hk : ∀ a, Q a → Ends P R (k a)) :
    Ends P R (x >>= k) := by
  cases hx with
  | ok h => exact hk _ h
  | error h => exact .error h

theorem Ends.mono {ε α : Type} {P : ε → Prop} {Q R : α → Prop} {x : Except ε α}
    (hx : Ends P Q x) (more : ∀ a, Q a → R a) : Ends P R x := by
  cases hx with
  | ok h => exact .ok (more _ h)
  | error h => exact .error h

end Outcome

namespace Supply

open Outcome (bind_eq_ok pure_eq_ok)

variable {α β γ δ : Type}

theorem bind_eq_ok {x : Supply α} {k : α → Supply β} {f : Fresh} {r : β × Fresh} :
    (x >>= k) f = .ok r ↔ ∃ a f₁, x f = .ok (a, f₁) ∧ k a f₁ = .ok r := by
  refine (Outcome.bind_eq_ok (x := x f) (k := fun p => k p.1 p.2)).trans ?_
  exact ⟨fun ⟨p, h⟩ => ⟨p.1, p.2, h⟩, fun ⟨a, f₁, h⟩ => ⟨(a, f₁), h⟩⟩

theorem pure_eq_ok {a b : α} {f f' : Fresh} :
    (pure a : Supply α) f = .ok (b, f') ↔ a = b ∧ f = f' := by
  refine Outcome.pure_eq_ok.trans ?_
  simp

theorem lift_ok (a : α) : (liftM (.ok a : Except Error α) : Supply α) = pure a := rfl

theorem lift_eq_ok {x : Except Error α} {a : α} {f f' : Fresh} :
    (liftM x : Supply α) f = .ok (a, f') ↔ x = .ok a ∧ f = f' := by
  refine (Outcome.bind_eq_ok (x := x) (k := fun a => pure (a, f))).trans ?_
  constructor
  · rintro ⟨a, h, hr⟩
    obtain ⟨rfl, rfl⟩ := Prod.mk.inj (Outcome.pure_eq_ok.mp hr)
    exact ⟨h, rfl⟩
  · rintro ⟨h, rfl⟩
    exact ⟨a, h, rfl⟩

theorem throw_ne_ok {e : Error} {f : Fresh} {r : α × Fresh} :
    (throw e : Supply α) f = .ok r ↔ False := by
  constructor
  · intro h
    cases h
  · exact False.elim

theorem bind_of_ok {x : Supply α} {k : α → Supply β} {f f₁ : Fresh} {a : α}
    (h : x f = .ok (a, f₁)) : (x >>= k) f = k a f₁ := by
  change (x f >>= _) = _
  rw [h]
  rfl

theorem bind_of_error {x : Supply α} {k : α → Supply β} {f : Fresh} {e : Error}
    (h : x f = .error e) : (x >>= k) f = .error e := by
  change (x f >>= _) = _
  rw [h]
  rfl

/-- What follows a computation may differ where the computation never ends up. -/
theorem bind_congr {x : Supply α} {k l : α → Supply β}
    (h : ∀ a f f', x f = .ok (a, f') → k a f' = l a f') : x >>= k = x >>= l := by
  funext f
  cases run : x f with
  | error e => rw [bind_of_error run, bind_of_error run]
  | ok r => rw [bind_of_ok run, bind_of_ok run, h _ _ _ run]

/-- Both fail, or both succeed with related results and the same names handed out. -/
def Agree (R : α → β → Prop) (x : Supply α) (y : Supply β) : Prop :=
  ∀ f, Outcome.Agree (fun a b => R a.1 b.1 ∧ a.2 = b.2) (x f) (y f)

namespace Agree

variable {R : α → β → Prop} {Q : γ → δ → Prop} {x : Supply α} {y : Supply β}

protected theorem pure {a : α} {b : β} (h : R a b) :
    Agree R (Pure.pure a : Supply α) (Pure.pure b) :=
  fun _ => .ok ⟨h, rfl⟩

protected theorem bind {k : α → Supply γ} {l : β → Supply δ} (hx : Agree R x y)
    (hk : ∀ a b, R a b → Agree Q (k a) (l b)) : Agree Q (x >>= k) (y >>= l) := by
  intro f
  refine Outcome.Agree.bind (hx f) ?_
  rintro ⟨a, f₁⟩ ⟨b, f₂⟩ ⟨hab, rfl⟩
  exact hk a b hab f₁

protected theorem lift {x : Except Error α} {y : Except Error β} (h : Outcome.Agree R x y) :
    Agree R (liftM x : Supply α) (liftM y) := by
  intro f
  cases h with
  | ok h => exact .ok ⟨h, rfl⟩
  | error e e' => exact .error e e'

protected theorem throw (e e' : Error) : Agree R (throw e : Supply α) (throw e') :=
  fun _ => .error e e'

protected theorem refl {R : α → α → Prop} {x : Supply α}
    (h : ∀ a f f', x f = .ok (a, f') → R a a) : Agree R x x := by
  intro f
  cases hx : x f with
  | ok r => exact .ok ⟨h r.1 f r.2 hx, rfl⟩
  | error e => exact .error e e

end Agree

/-- The second computation does what the first does, up to a mask. -/
def Masks (mask : α → α) (x y : Supply α) : Prop := Agree (fun a b => b = mask a) x y

/-- A computation that commutes with masks yields the same mask for inputs of the same mask. -/
theorem Masks.agree {x : α → Supply β} {mask : α → α} {mask' : β → β}
    (h : ∀ a, Masks mask' (x a) (x (mask a))) {a a' : α} (ha : mask a = mask a') :
    Agree (fun b b' => mask' b = mask' b') (x a) (x a') := by
  intro f
  refine ((h a f).trans (ha ▸ (h a' f).symm)).mono ?_
  rintro ⟨b, f₁⟩ ⟨b', f₂⟩ ⟨⟨_, _⟩, ⟨rfl, rfl⟩, hb, rfl⟩
  exact ⟨hb, rfl⟩

/-- Both succeed with related results and the same names handed out, or both fail with related
errors. -/
def Parallel (E : Error → Error → Prop) (R : α → β → Prop) (x : Supply α) (y : Supply β) : Prop :=
  ∀ f, Outcome.Parallel E (fun a b => R a.1 b.1 ∧ a.2 = b.2) (x f) (y f)

namespace Parallel

variable {E : Error → Error → Prop} {R : α → β → Prop} {Q : γ → δ → Prop} {x : Supply α}
  {y : Supply β}

protected theorem pure {a : α} {b : β} (h : R a b) :
    Parallel E R (Pure.pure a : Supply α) (Pure.pure b) :=
  fun _ => .ok ⟨h, rfl⟩

protected theorem bind {k : α → Supply γ} {l : β → Supply δ} (hx : Parallel E R x y)
    (hk : ∀ a b, R a b → Parallel E Q (k a) (l b)) : Parallel E Q (x >>= k) (y >>= l) := by
  intro f
  refine Outcome.Parallel.bind (hx f) ?_
  rintro ⟨a, f₁⟩ ⟨b, f₂⟩ ⟨hab, rfl⟩
  exact hk a b hab f₁

theorem bindSame {x y : Supply α} {k : α → Supply γ} {l : α → Supply δ} (hx : Parallel E Eq x y)
    (hk : ∀ a, Parallel E Q (k a) (l a)) : Parallel E Q (x >>= k) (y >>= l) :=
  hx.bind fun a _ same => same ▸ hk a

protected theorem lift {x : Except Error α} {y : Except Error β} (h : Outcome.Parallel E R x y) :
    Parallel E R (liftM x : Supply α) (liftM y) := by
  intro f
  cases h with
  | ok h => exact .ok ⟨h, rfl⟩
  | error h => exact .error h

protected theorem throw {e e' : Error} (h : E e e') :
    Parallel E R (throw e : Supply α) (throw e') :=
  fun _ => .error h

protected theorem refl (same : ∀ e, E e e) (x : Supply α) : Parallel E Eq x x := by
  intro f
  cases x f with
  | ok r => exact .ok ⟨rfl, rfl⟩
  | error e => exact .error (same e)

end Parallel

/-- What a computation ends with, whatever names have been handed out before. -/
def Ends (P : Error → Prop) (Q : α → Prop) (x : Supply α) : Prop :=
  ∀ f, Outcome.Ends P (fun r => Q r.1) (x f)

namespace Ends

variable {P : Error → Prop} {Q : α → Prop} {R : β → Prop}

protected theorem pure {a : α} (h : Q a) : Ends P Q (Pure.pure a : Supply α) := fun _ => .ok h

protected theorem bind {x : Supply α} {k : α → Supply β} (hx : Ends P Q x)
    (hk : ∀ a, Q a → Ends P R (k a)) : Ends P R (x >>= k) :=
  fun f => Outcome.Ends.bind (hx f) fun r hr => hk r.1 hr r.2

protected theorem lift {x : Except Error α} (h : Outcome.Ends P Q x) :
    Ends P Q (liftM x : Supply α) := by
  intro f
  cases h with
  | ok h => exact .ok h
  | error h => exact .error h

protected theorem throw {e : Error} (h : P e) : Ends P Q (throw e : Supply α) := fun _ => .error h

theorem mono {R : α → Prop} {x : Supply α} (hx : Ends P Q x) (more : ∀ a, Q a → R a) :
    Ends P R x :=
  fun f => (hx f).mono fun r hr => more r.1 hr

end Ends

end Supply

namespace Sql.Joining

variable {α β γ δ : Type}

theorem bind_eq_ok {x : Joining α} {k : α → Joining β} {tables : List Table} {f : Fresh}
    {r : (β × List Table) × Fresh} :
    (x >>= k) tables f = .ok r ↔
      ∃ a tables₁ f₁, x tables f = .ok ((a, tables₁), f₁) ∧ k a tables₁ f₁ = .ok r := by
  refine (Supply.bind_eq_ok (x := x tables) (k := fun p => k p.1 p.2)).trans ?_
  exact ⟨fun ⟨p, f₁, h⟩ => ⟨p.1, p.2, f₁, h⟩, fun ⟨a, t, f₁, h⟩ => ⟨(a, t), f₁, h⟩⟩

theorem pure_eq_ok {a b : α} {tables tables' : List Table} {f f' : Fresh} :
    (pure a : Joining α) tables f = .ok ((b, tables'), f') ↔ a = b ∧ tables = tables' ∧ f = f' := by
  refine Supply.pure_eq_ok.trans ?_
  simp [and_assoc]

theorem liftSupply_eq_ok {x : Supply α} {a : α} {tables tables' : List Table} {f f' : Fresh} :
    (liftM x : Joining α) tables f = .ok ((a, tables'), f') ↔
      x f = .ok (a, f') ∧ tables = tables' := by
  refine (Supply.bind_eq_ok (x := x) (k := fun a => pure (a, tables))).trans ?_
  constructor
  · rintro ⟨a, f₁, h, hr⟩
    obtain ⟨same, rfl⟩ := Supply.pure_eq_ok.mp hr
    obtain ⟨rfl, rfl⟩ := Prod.mk.inj same
    exact ⟨h, rfl⟩
  · rintro ⟨h, rfl⟩
    exact ⟨a, f', h, rfl⟩

theorem lift_eq_ok {x : Except Error α} {a : α} {tables tables' : List Table} {f f' : Fresh} :
    (liftM x : Joining α) tables f = .ok ((a, tables'), f') ↔
      x = .ok a ∧ tables = tables' ∧ f = f' := by
  refine (liftSupply_eq_ok (x := liftM x)).trans ?_
  rw [Supply.lift_eq_ok, and_assoc, and_comm (a := f = f')]

theorem throw_ne_ok {e : Error} {tables : List Table} {f : Fresh}
    {r : (α × List Table) × Fresh} : (throw e : Joining α) tables f = .ok r ↔ False := by
  constructor
  · intro h
    cases h
  · exact False.elim

theorem bind_of_ok {x : Joining α} {k : α → Joining β} {tables tables' : List Table} {f f' : Fresh}
    {a : α} (h : x tables f = .ok ((a, tables'), f')) : (x >>= k) tables f = k a tables' f' :=
  Supply.bind_of_ok (x := x tables) (k := fun r => k r.1 r.2) h

theorem bind_congr {x : Joining α} {k l : α → Joining β}
    (h : ∀ a tables f tables' f', x tables f = .ok ((a, tables'), f') →
      k a tables' f' = l a tables' f') : x >>= k = x >>= l := by
  funext tables
  exact Supply.bind_congr (x := x tables) fun r f f' run => h r.1 tables f r.2 f' run

theorem get_bind (k : List Table → Joining α) (tables : List Table) :
    (get >>= k) tables = k tables tables := rfl

theorem liftSupply_bind (x : Supply α) (k : α → Joining β) (tables : List Table) :
    ((liftM x : Joining α) >>= k) tables = x >>= fun a => k a tables := by
  funext f
  change ((x f >>= fun p => Pure.pure ((p.1, tables), p.2)) >>= fun p => k p.1.1 p.1.2 p.2) =
    x f >>= fun p => k p.1 tables p.2
  cases x f <;> rfl

/-- Both fail, or both succeed with related results and related tables. -/
def Agree (S : List Table → List Table → Prop) (R : α → β → Prop) (x : Joining α)
    (y : Joining β) : Prop :=
  ∀ t t', S t t' → Supply.Agree (fun a b => R a.1 b.1 ∧ S a.2 b.2) (x t) (y t')

namespace Agree

variable {S : List Table → List Table → Prop} {R : α → β → Prop} {Q : γ → δ → Prop}
  {x : Joining α} {y : Joining β}

protected theorem pure {a : α} {b : β} (h : R a b) :
    Agree S R (Pure.pure a : Joining α) (Pure.pure b) :=
  fun _ _ hs => .pure ⟨h, hs⟩

protected theorem bind {k : α → Joining γ} {l : β → Joining δ} (hx : Agree S R x y)
    (hk : ∀ a b, R a b → Agree S Q (k a) (l b)) : Agree S Q (x >>= k) (y >>= l) := by
  intro t t' hs
  change Supply.Agree _ (x t >>= fun p => k p.1 p.2) (y t' >>= fun p => l p.1 p.2)
  refine Supply.Agree.bind (hx t t' hs) ?_
  rintro ⟨a, t₁⟩ ⟨b, t₂⟩ ⟨hab, hs₁⟩
  exact hk a b hab t₁ t₂ hs₁

protected theorem liftSupply {x : Supply α} {y : Supply β} (h : Supply.Agree R x y) :
    Agree S R (liftM x : Joining α) (liftM y) := by
  intro t t' hs
  change Supply.Agree _ (x >>= fun a => Pure.pure (a, t)) (y >>= fun b => Pure.pure (b, t'))
  exact Supply.Agree.bind h fun a b hab => .pure ⟨hab, hs⟩

protected theorem lift {x : Except Error α} {y : Except Error β} (h : Outcome.Agree R x y) :
    Agree S R (liftM x : Joining α) (liftM y) :=
  .liftSupply (.lift h)

protected theorem throw (e e' : Error) : Agree S R (throw e : Joining α) (throw e') :=
  fun _ _ _ => .throw e e'

end Agree

/-- What a computation ends with that keeps a property of the tables. -/
def Ends (P : Error → Prop) (S : List Table → Prop) (Q : α → Prop) (x : Joining α) : Prop :=
  ∀ tables, S tables → Supply.Ends P (fun r => Q r.1 ∧ S r.2) (x tables)

namespace Ends

variable {P : Error → Prop} {S : List Table → Prop} {Q : α → Prop} {R : β → Prop}

protected theorem pure {a : α} (h : Q a) : Ends P S Q (Pure.pure a : Joining α) :=
  fun _ hs => .pure ⟨h, hs⟩

protected theorem bind {x : Joining α} {k : α → Joining β} (hx : Ends P S Q x)
    (hk : ∀ a, Q a → Ends P S R (k a)) : Ends P S R (x >>= k) :=
  fun tables hs => Supply.Ends.bind (hx tables hs) fun r hr => hk r.1 hr.1 r.2 hr.2

protected theorem liftSupply {x : Supply α} (h : Supply.Ends P Q x) :
    Ends P S Q (liftM x : Joining α) := by
  intro tables hs
  change Supply.Ends P _ (x >>= fun a => Pure.pure (a, tables))
  exact Supply.Ends.bind h fun a ha => .pure ⟨ha, hs⟩

protected theorem lift {x : Except Error α} (h : Outcome.Ends P Q x) :
    Ends P S Q (liftM x : Joining α) :=
  .liftSupply (.lift h)

protected theorem throw {e : Error} (h : P e) : Ends P S Q (throw e : Joining α) :=
  fun _ _ => .throw h

protected theorem get : Ends P S S (MonadState.get : Joining (List Table)) :=
  fun _ hs => .pure ⟨hs, hs⟩

protected theorem run {x : Joining α} (h : Ends P S Q x) {tables : List Table} (hs : S tables) :
    Supply.Ends P (fun r => Q r.1 ∧ S r.2) (x.run tables) :=
  h tables hs

end Ends

end Sql.Joining

end Comprehension
