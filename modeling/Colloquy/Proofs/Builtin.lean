import Colloquy.Proofs.Evaluation.Simulation

/-!
# What builtins ask of their arguments

A builtin looks at the kinds of its arguments, not at the numbers among them: on arguments that
are equal but for their numbers it fails alike (`Builtin.apply_of_sameKind`). It takes numbers only
and gives a number (`Builtin.apply_eq_ok`).
-/

namespace Colloquy

variable {κ : Type}

/-- The values are equal, or both numbers. -/
abbrev Value.SameKind : Value κ → Value κ → Prop := Value.Related fun _ _ => True

namespace Builtin

theorem numbers_cons (b : Builtin) (v : Value κ) (args : List (Value κ)) :
    b.numbers (v :: args) = (v.expectNumber s!"\"{b.name}\"").bind fun x =>
      (b.numbers args).map (x :: ·) := by
  unfold numbers
  rw [List.mapM_cons]
  cases v.expectNumber s!"\"{b.name}\"" with
  | error cause => rfl
  | ok x => cases args.mapM fun v : Value κ => v.expectNumber s!"\"{b.name}\"" <;> rfl

/-! ## Kinds -/

/-- Arguments of the same kinds are as many numbers, or the first of another kind is the same. -/
theorem numbers_of_sameKind (b : Builtin) {xs ys : List (Value κ)}
    (h : List.Forall₂ Value.SameKind xs ys) :
    Agree (fun ns ms : List Float => ns.length = ms.length) (b.numbers xs) (b.numbers ys) := by
  induction h with
  | nil => exact .ok rfl
  | @cons v w vs ws hhead _ ih =>
    rw [numbers_cons, numbers_cons]
    refine (hhead.expectNumber _).bind fun x y _ => ?_
    exact ih.map fun ns ms hlength => congrArg (· + 1) hlength

theorem fold_of_sameKind (b : Builtin) (f : List Float → Float) {xs ys : List (Value κ)}
    (h : List.Forall₂ Value.SameKind xs ys) :
    Agree Value.SameKind (b.fold f xs) (b.fold f ys) :=
  (b.numbers_of_sameKind h).map fun _ _ _ => .number trivial

theorem judge_of_sameKind (b : Builtin) (test : List Float → Bool) {xs ys : List (Value κ)}
    (h : List.Forall₂ Value.SameKind xs ys) :
    Agree Value.SameKind (b.judge test xs) (b.judge test ys) :=
  (b.numbers_of_sameKind h).map fun _ _ _ => .number trivial

theorem compare_of_sameKind (b : Builtin) (test : Float → Float → Bool) {xs ys : List (Value κ)}
    (h : List.Forall₂ Value.SameKind xs ys) :
    Agree Value.SameKind (b.compare test xs) (b.compare test ys) := by
  refine (b.numbers_of_sameKind h).bind fun ns ms hlength => ?_
  match ns, ms, hlength with
  | [], [], _ => exact .error _
  | [_], [_], _ => exact .error _
  | [_, _], [_, _], _ => exact .ok (.number trivial)
  | _ :: _ :: _ :: ns, _ :: _ :: _ :: ms, hlength =>
    have hcount : ns.length = ms.length := by simpa using hlength
    show Agree _ (Except.error _) (Except.error _)
    rw [List.length_cons, List.length_cons, List.length_cons, List.length_cons, List.length_cons,
      List.length_cons, hcount]
    exact .error _

/-- A builtin fails alike on arguments of the same kinds. -/
theorem apply_of_sameKind (b : Builtin) {xs ys : List (Value κ)}
    (h : List.Forall₂ Value.SameKind xs ys) :
    Agree Value.SameKind (b.apply xs) (b.apply ys) := by
  cases b
  case add | subtract | multiply | divide => exact fold_of_sameKind _ _ h
  case reaches | less | greater | lessEqual | greaterEqual | equal => exact compare_of_sameKind _ _ h
  case not | and | or => exact judge_of_sameKind _ _ h

/-! ## Numbers only -/

/-- The values are all numbers. -/
def AllNumbers (args : List (Value κ)) : Prop := ∃ xs : List Float, args = xs.map Value.number

theorem numbers_eq_ok {b : Builtin} :
    ∀ {args : List (Value κ)} {xs : List Float}, b.numbers args = .ok xs →
      args = xs.map Value.number
  | [], xs, h => by
    obtain rfl : [] = xs := Except.ok.inj h
    rfl
  | v :: args, xs, h => by
    rw [numbers_cons] at h
    obtain ⟨x, hx, hrest⟩ := bind_eq_ok.mp h
    obtain ⟨ys, hys, rfl⟩ := map_eq_ok.mp hrest
    cases v with
    | number y =>
      obtain rfl : y = x := Except.ok.inj hx
      rw [List.map_cons, numbers_eq_ok hys]
    | _ => cases hx

theorem fold_eq_ok {b : Builtin} {f : List Float → Float} {args : List (Value κ)} {v : Value κ}
    (h : b.fold f args = .ok v) : AllNumbers args ∧ ∃ x, v = .number x := by
  obtain ⟨xs, hxs, hv⟩ := map_eq_ok.mp h
  exact ⟨⟨xs, numbers_eq_ok hxs⟩, f xs, hv.symm⟩

theorem judge_eq_ok {b : Builtin} {test : List Float → Bool} {args : List (Value κ)} {v : Value κ}
    (h : b.judge test args = .ok v) : AllNumbers args ∧ ∃ x, v = .number x := by
  obtain ⟨xs, hxs, hv⟩ := map_eq_ok.mp h
  exact ⟨⟨xs, numbers_eq_ok hxs⟩, _, hv.symm⟩

theorem compare_eq_ok {b : Builtin} {test : Float → Float → Bool} {args : List (Value κ)}
    {v : Value κ} (h : b.compare test args = .ok v) : AllNumbers args ∧ ∃ x, v = .number x := by
  obtain ⟨xs, hxs, hcompare⟩ := bind_eq_ok.mp h
  refine ⟨⟨xs, numbers_eq_ok hxs⟩, ?_⟩
  match xs, hcompare with
  | [x, y], hcompare => exact ⟨_, (Except.ok.inj hcompare).symm⟩

/-- A builtin that succeeds was given numbers only and gives a number. -/
theorem apply_eq_ok {b : Builtin} {args : List (Value κ)} {v : Value κ} (h : b.apply args = .ok v) :
    AllNumbers args ∧ ∃ x, v = .number x := by
  cases b
  case add | subtract | multiply | divide => exact fold_eq_ok h
  case reaches | less | greater | lessEqual | greaterEqual | equal => exact compare_eq_ok h
  case not | and | or => exact judge_eq_ok h

end Builtin

end Colloquy
