import Colloquy.Proofs.Builtin

/-!
# Code that leaves the host alone

Every value that code computes on the way is used: as an argument, as the function to call, as the
value assigned. So on a host whose functions tell of every change by giving none (`Host.Quiet`),
an expression with any other value has changed nothing, since none is accepted nowhere but in an
assignment, which hands it on. Main statement: `Host.Quiet.evaluate`; for conditions,
`Host.Quiet.evaluateCondition`.
-/

namespace Colloquy

variable {κ σ : Type}

/-- A function of the host that gives something else than none was given nothing but such values
and has left the host alone. -/
def Host.Quiet (h : Host κ σ) : Prop :=
  ∀ (f : κ) (args : List (Value κ)) (s s' : σ) (v : Value κ),
    (h.call f args).result s = (.ok v, s') → v ≠ .none → s' = s ∧ Value.none ∉ args

namespace Turn

/-! ## The pieces of evaluation -/

theorem lookup_eq_ok {name : String} {state state' : TurnState κ σ} {v : Value κ}
    (h : (lookup name).result state = (.ok v, state')) :
    state' = state ∧ state.bindings.find? name = some v := by
  unfold lookup at h
  rw [Action.result_bind_of_ok (Action.result_get state)] at h
  cases hfind : state.bindings.find? name with
  | none =>
    rw [hfind] at h
    cases h
  | some value =>
    rw [hfind] at h
    cases h
    exact ⟨rfl, rfl⟩

theorem assign_eq_ok {name : String} {value : Value κ} {state state' : TurnState κ σ}
    (h : (assign name value).result state = (.ok (), state')) :
    state' = { state with bindings := state.bindings.insert name value } := by
  unfold assign at h
  rw [Action.result_bind_of_ok (Action.result_get state)] at h
  split at h
  · cases h
    rfl
  · cases h

theorem callee_eq_ok {head : Expr} {v : Value κ} {f : Native κ} {state state' : TurnState κ σ}
    (h : (callee head v).result state = (.ok f, state')) : state' = state ∧ v = .function f := by
  cases v with
  | function g =>
    cases h
    exact ⟨rfl, rfl⟩
  | _ => cases h

theorem onHost_eq_ok {α : Type} {a : Action σ α} {state state' : TurnState κ σ} {value : α}
    (h : (onHost a).result state = (.ok value, state')) :
    a.result state.host = (.ok value, state'.host) := by
  rw [onHost, Action.result_within] at h
  obtain ⟨hvalue, rfl⟩ := Prod.mk.inj h
  exact Prod.ext hvalue rfl

end Turn

namespace Host.Quiet

variable {h : Host κ σ}

theorem run (Q : h.Quiet) {f : Native κ} {args : List (Value κ)} {s s' : σ} {v : Value κ}
    (hrun : (h.run f args).result s = (.ok v, s')) (hv : v ≠ .none) :
    s' = s ∧ Value.none ∉ args := by
  cases f with
  | own f => exact Q f args s s' v hrun hv
  | builtin b =>
    rw [Host.run, Action.result_ofExcept] at hrun
    obtain ⟨hvalue, rfl⟩ := Prod.mk.inj hrun
    rcases happly : b.apply args with cause | w
    · rw [happly] at hvalue
      cases hvalue
    · obtain ⟨⟨xs, rfl⟩, -⟩ := Builtin.apply_eq_ok happly
      exact ⟨rfl, by simp⟩

theorem apply (Q : h.Quiet) {f : Native κ} {args : List (Value κ)} {s s' : σ} {v : Value κ}
    (happly : (h.apply f args).result s = (.ok v, s')) (hv : v ≠ .none) :
    s' = s ∧ Value.none ∉ args := by
  obtain ⟨⟨⟩, s₁, hcount, hrun⟩ := Action.result_bind_eq_ok.mp happly
  rw [Action.result_ofExcept] at hcount
  obtain ⟨-, rfl⟩ := Prod.mk.inj hcount
  exact Q.run hrun hv

mutual

/-- An expression with another value than none has left the host alone. -/
theorem evaluate (Q : h.Quiet) : ∀ (e : Expr) {state state' : TurnState κ σ} {v : Value κ},
    (Turn.evaluate h e).result state = (.ok v, state') → v ≠ .none → state'.host = state.host
  | .number x, state, state', v, hrun, hv => by
    rw [Turn.evaluate] at hrun
    cases hrun
    rfl
  | .text s, state, state', v, hrun, hv => by
    rw [Turn.evaluate] at hrun
    cases hrun
    rfl
  | .symbol name, state, state', v, hrun, hv => by
    rw [Turn.evaluate] at hrun
    rw [(Turn.lookup_eq_ok hrun).1]
  | .list items, state, state', v, hrun, hv => by
    rw [Turn.evaluate] at hrun
    exact evaluateList Q items hrun hv

theorem evaluateList (Q : h.Quiet) :
    ∀ (items : List Expr) {state state' : TurnState κ σ} {v : Value κ},
      (Turn.evaluateList h items).result state = (.ok v, state') → v ≠ .none →
        state'.host = state.host
  | [], state, state', v, hrun, hv => by
    rw [Turn.evaluateList] at hrun
    cases hrun
  | head :: args, state, state', v, hrun, hv => by
    rw [Turn.evaluateList] at hrun
    split at hrun
    · exact evaluateAssignment Q args hrun hv
    · obtain ⟨w, s₁, hhead, hrest⟩ := Action.result_bind_eq_ok.mp hrun
      obtain ⟨f, s₂, hcallee, hrest⟩ := Action.result_bind_eq_ok.mp hrest
      obtain ⟨⟨⟩, s₃, hcount, hrest⟩ := Action.result_bind_eq_ok.mp hrest
      obtain ⟨values, s₄, hargs, hcall⟩ := Action.result_bind_eq_ok.mp hrest
      obtain ⟨rfl, rfl⟩ := Turn.callee_eq_ok hcallee
      rw [Action.result_ofExcept] at hcount
      obtain ⟨-, rfl⟩ := Prod.mk.inj hcount
      -- backwards: the call gave a value, so its arguments were values, and so was the head
      obtain ⟨hhost, hnone⟩ := Q.apply (Turn.onHost_eq_ok hcall) hv
      calc state'.host = s₄.host := hhost
        _ = s₂.host := evaluateAll Q args hargs hnone
        _ = state.host := evaluate Q head hhead (by simp)

theorem evaluateAssignment (Q : h.Quiet) :
    ∀ (items : List Expr) {state state' : TurnState κ σ} {v : Value κ},
      (Turn.evaluateAssignment h items).result state = (.ok v, state') → v ≠ .none →
        state'.host = state.host
  | [], state, state', v, hrun, hv => by cases hrun
  | [_], state, state', v, hrun, hv => by cases hrun
  | [target, e], state, state', v, hrun, hv => by
    rw [Turn.evaluateAssignment] at hrun
    split at hrun
    · obtain ⟨w, s₁, he, hrest⟩ := Action.result_bind_eq_ok.mp hrun
      obtain ⟨⟨⟩, s₂, hassign, hend⟩ := Action.result_bind_eq_ok.mp hrest
      cases hend
      rw [Turn.assign_eq_ok hassign]
      show s₁.host = state.host
      exact evaluate Q e he hv
    · cases hrun
  | _ :: _ :: _ :: _, state, state', v, hrun, hv => by cases hrun

theorem evaluateAll (Q : h.Quiet) :
    ∀ (items : List Expr) {state state' : TurnState κ σ} {values : List (Value κ)},
      (Turn.evaluateAll h items).result state = (.ok values, state') → Value.none ∉ values →
        state'.host = state.host
  | [], state, state', values, hrun, hnone => by
    rw [Turn.evaluateAll] at hrun
    cases hrun
    rfl
  | e :: rest, state, state', values, hrun, hnone => by
    rw [Turn.evaluateAll] at hrun
    obtain ⟨v, s₁, he, hrest⟩ := Action.result_bind_eq_ok.mp hrun
    obtain ⟨others, s₂, hothers, hend⟩ := Action.result_bind_eq_ok.mp hrest
    cases hend
    rw [List.mem_cons, not_or] at hnone
    calc state'.host = s₁.host := evaluateAll Q rest hothers hnone.2
      _ = state.host := evaluate Q e he (Ne.symm hnone.1)

end

/-- A condition holds when its value is a number above zero, and has then left the host alone. -/
theorem evaluateCondition (Q : h.Quiet) {condition : Expr} {state state' : TurnState κ σ}
    {holds : Bool} (hrun : (Turn.evaluateCondition h condition).result state = (.ok holds, state')) :
    state'.host = state.host ∧ ∃ x, (Turn.evaluate h condition).result state = (.ok (.number x), state')
      ∧ holds = decide (x > 0) := by
  obtain ⟨v, s₁, he, hrest⟩ := Action.result_bind_eq_ok.mp hrun
  cases v with
  | number x =>
    cases hrest
    exact ⟨Q.evaluate condition he (by simp), x, he, rfl⟩
  | _ => cases hrest

end Host.Quiet

end Colloquy
