import Colloquy.Action
import Mathlib.Data.List.Forall2

/-!
# Running actions

What an action gives and leaves behind, piece by piece: one equation for each way to build an
action, so that later proofs run one without opening the monad.

Two actions are *in step* (`Action.InStep S R`) when from states related by `S` they fail with the
same fault or both succeed with values related by `R`, and leave states related by `S`. Being in
step is built up like an action: `InStep.pure`, `InStep.bind` and so on have one rule for each
piece. The two actions may work on different states, which is how a host is compared with another
host, and a run with a run on other numbers.
-/

namespace Colloquy

variable {ε σ τ α β γ δ : Type}

namespace Action

@[simp] theorem result_pure (value : α) (s : σ) :
    (pure value : Action σ α).result s = (.ok value, s) := rfl

@[simp] theorem result_throw (fault : Fault) (s : σ) :
    (throw fault : Action σ α).result s = (.error fault, s) := rfl

@[simp] theorem result_get (s : σ) : (get : Action σ σ).result s = (.ok s, s) := rfl

@[simp] theorem result_set (s s' : σ) : (set s' : Action σ Unit).result s = (.ok (), s') := rfl

@[simp] theorem result_modify (f : σ → σ) (s : σ) :
    (modify f : Action σ Unit).result s = (.ok (), f s) := rfl

@[simp] theorem result_of (f : σ → Except Fault α × σ) (s : σ) : (of f).result s = f s := rfl

@[simp] theorem result_ofExcept (r : Except Fault α) (s : σ) :
    (ofExcept r : Action σ α).result s = (r, s) := by
  cases r <;> rfl

@[simp] theorem result_within (part : τ → σ) (replace : τ → σ → τ) (a : Action σ α) (t : τ) :
    (a.within part replace).result t
      = ((a.result (part t)).1, replace t (a.result (part t)).2) := rfl

@[simp] theorem result_attempt (a : Action σ α) (s : σ) :
    a.attempt.result s = (.ok (a.result s).1, (a.result s).2) := rfl

/-- A sequence goes on from where its first action ended, unless that failed. -/
theorem result_bind (a : Action σ α) (k : α → Action σ β) (s : σ) :
    (a >>= k).result s = match a.result s with
      | (.ok value, s') => (k value).result s'
      | (.error fault, s') => (.error fault, s') := by
  show ExceptT.bindCont k (a.result s).1 (a.result s).2 = _
  rcases a.result s with ⟨_ | _, _⟩ <;> rfl

theorem result_bind_of_ok {a : Action σ α} {k : α → Action σ β} {s s' : σ} {value : α}
    (h : a.result s = (.ok value, s')) : (a >>= k).result s = (k value).result s' := by
  rw [result_bind, h]

theorem result_bind_of_error {a : Action σ α} {k : α → Action σ β} {s s' : σ} {fault : Fault}
    (h : a.result s = (.error fault, s')) : (a >>= k).result s = (.error fault, s') := by
  rw [result_bind, h]

/-- After a step without an effect comes the rest, or nothing. -/
theorem result_ofExcept_bind (r : Except Fault α) (k : α → Action σ β) (s : σ) :
    (ofExcept r >>= k).result s = match r with
      | .ok value => (k value).result s
      | .error fault => (.error fault, s) := by
  rw [result_bind, result_ofExcept]
  cases r <;> rfl

theorem result_bind_pure (a : Action σ α) (f : α → β) (s : σ) :
    (a >>= fun value => pure (f value)).result s = ((a.result s).1.map f, (a.result s).2) := by
  rw [result_bind]
  rcases a.result s with ⟨_ | _, _⟩ <;> rfl

/-- A sequence succeeds when both its actions do. -/
theorem result_bind_eq_ok {a : Action σ α} {k : α → Action σ β} {s s'' : σ} {value : β} :
    (a >>= k).result s = (.ok value, s'')
      ↔ ∃ first s', a.result s = (.ok first, s') ∧ (k first).result s' = (.ok value, s'') := by
  rw [result_bind]
  constructor
  · intro h
    split at h
    next first s' ha => exact ⟨first, s', ha, h⟩
    next => simp at h
  · rintro ⟨first, s', ha, hk⟩
    rw [ha]
    exact hk

end Action

/-! ## Results that succeed -/

theorem bind_eq_ok {r : Except ε α} {f : α → Except ε β} {b : β} :
    (r >>= f) = .ok b ↔ ∃ a, r = .ok a ∧ f a = .ok b := by
  constructor
  · intro h
    cases r with
    | ok a => exact ⟨a, rfl, h⟩
    | error fault => cases h
  · rintro ⟨a, rfl, h⟩
    exact h

/-- A check and what comes after it. -/
theorem check_bind_eq_ok {r : Except ε Unit} {rest : Except ε β} {b : β} :
    (r >>= fun _ => rest) = .ok b ↔ r = .ok () ∧ rest = .ok b := by
  rw [bind_eq_ok]
  constructor
  · rintro ⟨⟨⟩, hcheck, hrest⟩
    exact ⟨hcheck, hrest⟩
  · rintro ⟨hcheck, hrest⟩
    exact ⟨(), hcheck, hrest⟩

theorem map_eq_ok {r : Except ε α} {f : α → β} {b : β} :
    r.map f = .ok b ↔ ∃ a, r = .ok a ∧ f a = b := by
  constructor
  · intro h
    cases r with
    | ok a => exact ⟨a, rfl, Except.ok.inj h⟩
    | error fault => cases h
  · rintro ⟨a, rfl, rfl⟩
    rfl

/-- To map a result changes no fault. -/
theorem map_eq_error {r : Except ε α} {f : α → β} {fault : ε} :
    r.map f = .error fault ↔ r = .error fault := by
  cases r with
  | ok value =>
    constructor
    · intro h
      cases h
    · intro h
      cases h
  | error other =>
    constructor
    · intro h
      cases h
      rfl
    · intro h
      cases h
      rfl

theorem mapError_eq_ok {ε' : Type} {r : Except ε α} {f : ε → ε'} {a : α} :
    r.mapError f = .ok a ↔ r = .ok a := by
  cases r with
  | ok value =>
    constructor
    · intro h
      cases h
      rfl
    · intro h
      cases h
      rfl
  | error fault =>
    constructor
    · intro h
      cases h
    · intro h
      cases h

theorem mapM_eq_ok {f : α → Except ε β} : ∀ {items : List α} {values : List β},
    items.mapM f = .ok values ↔ List.Forall₂ (fun item value => f item = .ok value) items values
  | [], values => by
    rw [List.forall₂_nil_left_iff, List.mapM_nil]
    constructor
    · intro h
      cases h
      rfl
    · rintro rfl
      rfl
  | item :: rest, values => by
    rw [List.forall₂_cons_left_iff, List.mapM_cons, bind_eq_ok]
    refine exists_congr fun value => ?_
    rw [bind_eq_ok]
    constructor
    · rintro ⟨hvalue, others, hothers, h⟩
      cases h
      exact ⟨others, hvalue, mapM_eq_ok.mp hothers, rfl⟩
    · rintro ⟨others, hvalue, hothers, rfl⟩
      exact ⟨hvalue, others, mapM_eq_ok.mpr hothers, rfl⟩

/-! ## Results that agree -/

/-- Both are the same fault, or both are values, related by `R`. -/
inductive Agree (R : α → β → Prop) : Except ε α → Except ε β → Prop
  | ok {a : α} {b : β} (related : R a b) : Agree R (.ok a) (.ok b)
  | error (fault : ε) : Agree R (.error fault) (.error fault)

namespace Agree

variable {R : α → β → Prop} {Q : γ → δ → Prop}

theorem mapError {ε' : Type} (f : ε → ε') {r : Except ε α} {r' : Except ε β}
    (agree : Agree R r r') : Agree R (r.mapError f) (r'.mapError f) := by
  cases agree with
  | ok related => exact .ok related
  | error fault => exact .error (f fault)

theorem map {f : α → γ} {g : β → δ} (h : ∀ a b, R a b → Q (f a) (g b)) {r : Except ε α}
    {r' : Except ε β} (agree : Agree R r r') : Agree Q (r.map f) (r'.map g) := by
  cases agree with
  | ok related => exact .ok (h _ _ related)
  | error fault => exact .error fault

theorem bind {f : α → Except ε γ} {g : β → Except ε δ} {r : Except ε α} {r' : Except ε β}
    (agree : Agree R r r') (h : ∀ a b, R a b → Agree Q (f a) (g b)) :
    Agree Q (r >>= f) (r' >>= g) := by
  cases agree with
  | ok related => exact h _ _ related
  | error fault => exact .error fault

/-- Results that agree up to equality are equal. -/
theorem eq {r r' : Except ε α} (agree : Agree (· = ·) r r') : r = r' := by
  cases agree with
  | ok related => rw [related]
  | error fault => rfl

theorem mono {Q : α → β → Prop} (h : ∀ a b, R a b → Q a b) {r : Except ε α} {r' : Except ε β}
    (agree : Agree R r r') : Agree Q r r' := by
  cases agree with
  | ok related => exact .ok (h _ _ related)
  | error fault => exact .error fault

theorem refl {R : α → α → Prop} (h : ∀ a, R a a) (r : Except ε α) : Agree R r r := by
  cases r with
  | ok value => exact .ok (h value)
  | error fault => exact .error fault

end Agree

/-! ## Actions in step -/

/-- From states related by `S` the actions agree up to `R`, and leave states related by `S`. -/
def Action.InStep (S : σ → τ → Prop) (R : α → β → Prop) (a : Action σ α) (b : Action τ β) : Prop :=
  ∀ s t, S s t → Agree R (a.result s).1 (b.result t).1 ∧ S (a.result s).2 (b.result t).2

namespace Action.InStep

variable {S : σ → τ → Prop} {R : α → β → Prop} {Q : γ → δ → Prop}

theorem pure {a : α} {b : β} (related : R a b) :
    InStep S R (Pure.pure a : Action σ α) (Pure.pure b) :=
  fun _ _ hS => ⟨.ok related, hS⟩

/-- An action is in step with itself from equal states. -/
theorem refl (a : Action σ α) : InStep (· = ·) (· = ·) a a := by
  rintro s _ rfl
  exact ⟨Agree.refl (fun _ => rfl) _, rfl⟩

theorem throw (fault : Fault) :
    InStep S R (MonadExcept.throw fault : Action σ α) (MonadExcept.throw fault) :=
  fun _ _ hS => ⟨.error fault, hS⟩

theorem ofExcept {r : Except Fault α} {r' : Except Fault β} (agree : Agree R r r') :
    InStep S R (Action.ofExcept r) (Action.ofExcept r') := by
  intro s t hS
  rw [result_ofExcept, result_ofExcept]
  exact ⟨agree, hS⟩

theorem get : InStep S S (MonadState.get : Action σ σ) (MonadState.get : Action τ τ) :=
  fun _ _ hS => ⟨.ok hS, hS⟩

theorem set {s : σ} {t : τ} (related : S s t) :
    InStep S (fun _ _ => True) (MonadStateOf.set s : Action σ Unit) (MonadStateOf.set t) :=
  fun _ _ _ => ⟨.ok trivial, related⟩

/-- Both actions succeed with related values, or both fail with one fault. -/
theorem ok_or_error {a : Action σ α} {b : Action τ β} (h : InStep S R a b) {s : σ} {t : τ}
    (hS : S s t) :
    (∃ x y s' t', a.result s = (.ok x, s') ∧ b.result t = (.ok y, t') ∧ R x y ∧ S s' t') ∨
      ∃ fault s' t', a.result s = (.error fault, s') ∧ b.result t = (.error fault, t') ∧ S s' t' := by
  obtain ⟨hvalues, hstates⟩ := h s t hS
  rcases ha : a.result s with ⟨fault | x, s'⟩ <;> rcases hb : b.result t with ⟨fault' | y, t'⟩ <;>
    rw [ha, hb] at hvalues hstates
  -- where only one of them fails they do not agree
  · cases hvalues
    exact Or.inr ⟨fault, s', t', rfl, rfl, hstates⟩
  · cases hvalues
  · cases hvalues
  · cases hvalues with
    | ok related => exact Or.inl ⟨x, y, s', t', rfl, rfl, related, hstates⟩

theorem mono {Q : α → β → Prop} (hRQ : ∀ x y, R x y → Q x y) {a : Action σ α} {b : Action τ β}
    (h : InStep S R a b) : InStep S Q a b :=
  fun s t hS => ⟨(h s t hS).1.mono hRQ, (h s t hS).2⟩

theorem bind {a : Action σ α} {b : Action τ β} {k : α → Action σ γ} {l : β → Action τ δ}
    (first : InStep S R a b) (rest : ∀ x y, R x y → InStep S Q (k x) (l y)) :
    InStep S Q (a >>= k) (b >>= l) := by
  intro s t hS
  rcases first.ok_or_error hS with ⟨x, y, s', t', ha, hb, hR, hS'⟩ | ⟨fault, s', t', ha, hb, hS'⟩
  · rw [result_bind_of_ok ha, result_bind_of_ok hb]
    exact rest x y hR s' t' hS'
  · rw [result_bind_of_error ha, result_bind_of_error hb]
    exact ⟨.error fault, hS'⟩

theorem attempt {a : Action σ α} {b : Action τ β} (h : InStep S R a b) :
    InStep S (Agree R) a.attempt b.attempt :=
  fun s t hS => ⟨.ok (h s t hS).1, (h s t hS).2⟩

/-- Actions in step on parts of larger states are in step on the larger states. -/
theorem within {σ' τ' : Type} {S' : σ' → τ' → Prop} {part : σ' → σ} {replace : σ' → σ → σ'}
    {part' : τ' → τ} {replace' : τ' → τ → τ'} {a : Action σ α} {b : Action τ β}
    (hpart : ∀ s t, S' s t → S (part s) (part' t))
    (hreplace : ∀ s t x y, S' s t → S x y → S' (replace s x) (replace' t y))
    (h : InStep S R a b) : InStep S' R (a.within part replace) (b.within part' replace') := by
  intro s t hS
  obtain ⟨hvalues, hstates⟩ := h _ _ (hpart s t hS)
  exact ⟨hvalues, hreplace _ _ _ _ hS hstates⟩

end Action.InStep

end Colloquy
