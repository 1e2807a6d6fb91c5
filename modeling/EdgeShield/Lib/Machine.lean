import Mathlib.Data.List.Induction

/-!
# Machines and their runs

A `Machine` reads one input at a time and answers each with one output.  `step`
is `none` where the input is not enabled: a guard that fails, or a computation
that never comes back.  `run` chains the steps over a list of inputs, and so a
run that is `some` is one in which every step was taken.

Three rules carry every result about runs.

* `run_snoc`: a run over `is ++ [i]` is a run over `is` and one step more.
* `run_induction`: what holds at the start and is kept by a step holds after
  every run.  The predicate sees the inputs and the outputs so far, so an
  invariant can speak about the history.
* `run_induction_of_meets`: the same, when every step also meets a condition on
  the state it starts in (`Meets`).

`run_worklist` is the run that works off a list in the state, and
`forall_outputs_iff_meets` says when all outputs of a run are good.

`lockstep` is the rule for two machines on the same inputs: a relation between
their states that a pair of steps keeps holds after every pair of runs.  `unwinding` is
the rule for one machine on two lists of inputs, all of them and only those that an
observer sees: a relation that steps on seen inputs keep, with equal outputs, and that
steps on the others do not disturb makes the two runs look the same to the observer.
-/

namespace EdgeShield.Lib

/-- A machine with states `σ`, inputs `ι` and one output in `ω` for each step. -/
structure Machine (σ ι ω : Type*) where
  step : σ → ι → Option (σ × ω)

namespace Machine

variable {σ ι ω : Type*} (M : Machine σ ι ω)

/-- The run over a list of inputs: the last state, and the outputs in order. -/
def run : σ → List ι → Option (σ × List ω)
  | s, [] => some (s, [])
  | s, i :: is =>
    match M.step s i with
    | none => none
    | some (s', o) => (run s' is).map fun r => (r.1, o :: r.2)

@[simp] theorem run_nil (s : σ) : M.run s [] = some (s, []) := rfl

theorem run_cons {s t : σ} {i : ι} {is : List ι} {os : List ω} :
    M.run s (i :: is) = some (t, os) ↔
      ∃ s' o os', M.step s i = some (s', o) ∧ M.run s' is = some (t, os') ∧ os = o :: os' := by
  rw [run]
  constructor
  · intro h
    cases hs : M.step s i with
    | none => rw [hs] at h; simp at h
    | some r =>
      obtain ⟨s', o⟩ := r
      rw [hs] at h
      obtain ⟨⟨t', os'⟩, hr, he⟩ := Option.map_eq_some_iff.mp h
      cases he
      exact ⟨s', o, os', rfl, hr, rfl⟩
  · rintro ⟨s', o, os', hs, hr, rfl⟩
    rw [hs]
    simp [hr]

theorem run_append {s t : σ} {is js : List ι} {os : List ω} :
    M.run s (is ++ js) = some (t, os) ↔
      ∃ s' os₁ os₂, M.run s is = some (s', os₁) ∧ M.run s' js = some (t, os₂) ∧
        os = os₁ ++ os₂ := by
  induction is generalizing s os with
  | nil =>
    constructor
    · intro h
      exact ⟨s, [], os, rfl, h, rfl⟩
    · rintro ⟨s', os₁, os₂, h₁, h₂, rfl⟩
      cases h₁
      exact h₂
  | cons i is ih =>
    rw [List.cons_append, run_cons]
    constructor
    · rintro ⟨s', o, os', hs, hr, rfl⟩
      obtain ⟨u, os₁, os₂, h₁, h₂, rfl⟩ := ih.mp hr
      exact ⟨u, o :: os₁, os₂, M.run_cons.mpr ⟨s', o, os₁, hs, h₁, rfl⟩, h₂, rfl⟩
    · rintro ⟨u, os₁, os₂, h₁, h₂, rfl⟩
      obtain ⟨s', o, os', hs, hr, rfl⟩ := M.run_cons.mp h₁
      exact ⟨s', o, os' ++ os₂, hs, ih.mpr ⟨u, os', os₂, hr, h₂, rfl⟩, rfl⟩

theorem run_snoc {s t : σ} {is : List ι} {i : ι} {os : List ω} :
    M.run s (is ++ [i]) = some (t, os) ↔
      ∃ s' os' o, M.run s is = some (s', os') ∧ M.step s' i = some (t, o) ∧
        os = os' ++ [o] := by
  rw [run_append]
  constructor
  · rintro ⟨s', os₁, os₂, h₁, h₂, rfl⟩
    obtain ⟨u, o, os', hs, hr, rfl⟩ := M.run_cons.mp h₂
    cases hr
    exact ⟨s', os₁, o, h₁, hs, rfl⟩
  · rintro ⟨s', os', o, h, hs, rfl⟩
    exact ⟨s', os', [o], h, M.run_cons.mpr ⟨t, o, [], hs, rfl, rfl⟩, rfl⟩

theorem length_of_run {s t : σ} {is : List ι} {os : List ω} (h : M.run s is = some (t, os)) :
    os.length = is.length := by
  induction is generalizing s os with
  | nil =>
    cases h
    rfl
  | cons i is ih =>
    obtain ⟨s', o, os', -, hr, rfl⟩ := M.run_cons.mp h
    rw [List.length_cons, ih hr, List.length_cons]

/-- **A list that is worked off**, one element for each input `i`. -/
theorem run_worklist {τ β : Type*} {state : τ → List β → σ} {next : τ → β → τ} {i : ι}
    {out : β → ω}
    (hstep : ∀ t b bs, M.step (state t (b :: bs)) i = some (state (next t b) bs, out b))
    (bs : List β) (t : τ) :
    M.run (state t bs) (List.replicate bs.length i) =
      some (state (bs.foldl next t) [], bs.map out) := by
  induction bs generalizing t with
  | nil => rfl
  | cons b bs ih => exact M.run_cons.mpr ⟨_, _, _, hstep t b bs, ih (next t b), rfl⟩

/-! ### Runs whose steps meet a condition -/

/-- Every step of the run over `is` starts in a state that meets `ok` with its
input. -/
def Meets (ok : σ → ι → Prop) : σ → List ι → Prop
  | _, [] => True
  | s, i :: is => ok s i ∧ ∀ s' o, M.step s i = some (s', o) → Meets ok s' is

theorem meets_cons_of_step {ok : σ → ι → Prop} {s s' : σ} {i : ι} {is : List ι} {o : ω}
    (h : M.step s i = some (s', o)) : M.Meets ok s (i :: is) ↔ ok s i ∧ M.Meets ok s' is := by
  refine and_congr_right fun _ => ⟨fun hm => hm s' o h, fun hm u p hu => ?_⟩
  rw [h] at hu
  cases hu
  exact hm

def decidableMeets {ok : σ → ι → Prop} [∀ s i, Decidable (ok s i)] :
    ∀ (s : σ) (is : List ι), Decidable (M.Meets ok s is)
  | _, [] => .isTrue trivial
  | s, i :: is =>
    match h : M.step s i with
    | none => decidable_of_iff (ok s i)
        ⟨fun hok => ⟨hok, fun _ _ hs => by rw [h] at hs; cases hs⟩, fun hm => hm.1⟩
    | some (s', _) =>
      haveI : Decidable (M.Meets ok s' is) := decidableMeets s' is
      decidable_of_iff (ok s i ∧ M.Meets ok s' is) (M.meets_cons_of_step h).symm

instance {ok : σ → ι → Prop} [∀ s i, Decidable (ok s i)] (s : σ) (is : List ι) :
    Decidable (M.Meets ok s is) := M.decidableMeets s is

theorem meets_append {ok : σ → ι → Prop} {s t : σ} {is js : List ι} {os : List ω}
    (hr : M.run s is = some (t, os)) :
    M.Meets ok s (is ++ js) ↔ M.Meets ok s is ∧ M.Meets ok t js := by
  induction is generalizing s os with
  | nil => cases hr; exact (iff_of_eq (true_and _)).symm
  | cons i is ih =>
    obtain ⟨s', o, os', hs, hr', rfl⟩ := M.run_cons.mp hr
    rw [List.cons_append, M.meets_cons_of_step hs, M.meets_cons_of_step hs, ih hr', and_assoc]

theorem meets_iff {ok : σ → ι → Prop} {s : σ} {is : List ι} :
    M.Meets ok s is ↔ ∀ is₁ i is₂ s₁ os₁, is = is₁ ++ i :: is₂ → M.run s is₁ = some (s₁, os₁) →
      ok s₁ i := by
  induction is generalizing s with
  | nil =>
    refine ⟨fun _ is₁ i is₂ _ _ h => ?_, fun _ => trivial⟩
    cases is₁ <;> cases h
  | cons j is ih =>
    constructor
    · rintro ⟨hok, hrest⟩ is₁ i is₂ s₁ os₁ he hr
      cases is₁ with
      | nil => cases he; cases hr; exact hok
      | cons k is₁ =>
        cases he
        obtain ⟨s', o, os', hs, hr', rfl⟩ := M.run_cons.mp hr
        exact ih.mp (hrest s' o hs) is₁ i is₂ s₁ os' rfl hr'
    · intro h
      refine ⟨h [] j is s [] rfl rfl, fun s' o hs => ih.mpr ?_⟩
      rintro is₁ i is₂ s₁ os₁ rfl hr
      exact h (j :: is₁) i is₂ s₁ (o :: os₁) rfl (M.run_cons.mpr ⟨s', o, os₁, hs, hr, rfl⟩)

/-- **Invariants of runs whose steps meet a condition.**  The predicate sees the
inputs and the outputs so far, and a step may use that they are a run. -/
theorem meets_mono {ok ok' : σ → ι → Prop} (himp : ∀ s i, ok s i → ok' s i) {s : σ} {is : List ι}
    (h : M.Meets ok s is) : M.Meets ok' s is :=
  M.meets_iff.mpr fun is₁ i is₂ s₁ os₁ he hr => himp s₁ i (M.meets_iff.mp h is₁ i is₂ s₁ os₁ he hr)

theorem run_induction_of_meets {ok : σ → ι → Prop} {P : List ι → List ω → σ → Prop} {s₀ : σ}
    (init : P [] [] s₀)
    (step : ∀ is os s i s' o, M.run s₀ is = some (s, os) → P is os s → ok s i →
      M.step s i = some (s', o) → P (is ++ [i]) (os ++ [o]) s') :
    ∀ {is : List ι} {os : List ω} {s : σ}, M.run s₀ is = some (s, os) → M.Meets ok s₀ is →
      P is os s := by
  intro is
  induction is using List.reverseRecOn with
  | nil => intro os s h _; cases h; exact init
  | append_singleton is i ih =>
    intro os s h hm
    obtain ⟨s', os', o, hr, hs, rfl⟩ := M.run_snoc.mp h
    obtain ⟨hm₁, hm₂⟩ := (M.meets_append hr).mp hm
    exact step is os' s' i s o hr (ih hr hm₁) hm₂.1 hs

/-- **Good outputs are steps that meet a condition**, in every run of a machine where this
holds of each step. -/
theorem forall_outputs_iff_meets {ok : σ → ι → Prop} {good : ω → Prop}
    (hstep : ∀ s i s' o, M.step s i = some (s', o) → (good o ↔ ok s i)) {s t : σ} {is : List ι}
    {os : List ω} (h : M.run s is = some (t, os)) : (∀ o ∈ os, good o) ↔ M.Meets ok s is := by
  induction is generalizing s os with
  | nil =>
    cases h
    exact ⟨fun _ => trivial, fun _ o ho => absurd ho List.not_mem_nil⟩
  | cons i is ih =>
    obtain ⟨s', o, os', hs, hr, rfl⟩ := M.run_cons.mp h
    rw [M.meets_cons_of_step hs, List.forall_mem_cons, hstep s i s' o hs, ih hr]

theorem meets_true : ∀ (is : List ι) (s : σ), M.Meets (fun _ _ => True) s is := by
  intro is
  induction is with
  | nil => intro _; exact trivial
  | cons i is ih => intro s; exact ⟨trivial, fun s' _ _ => ih s'⟩

/-- **Invariants of runs.** -/
theorem run_induction {P : List ι → List ω → σ → Prop} {s₀ : σ} (init : P [] [] s₀)
    (step : ∀ is os s i s' o, M.run s₀ is = some (s, os) → P is os s →
      M.step s i = some (s', o) → P (is ++ [i]) (os ++ [o]) s')
    {is : List ι} {os : List ω} {s : σ} (h : M.run s₀ is = some (s, os)) : P is os s := by
  refine M.run_induction_of_meets init ?_ h (M.meets_true is s₀)
  intro is os s i s' o hr hp _ hs
  exact step is os s i s' o hr hp hs

/-- **Two machines in lockstep.**  `A` are the inputs that are considered, and the
relation sees the inputs and both outputs so far. -/
theorem lockstep {τ ν : Type*} {N : Machine τ ι ν} {A : List ι → Prop}
    {R : List ι → List ω → List ν → σ → τ → Prop} {s₀ : σ} {t₀ : τ}
    (hinit : ∀ is i, A (is ++ [i]) → A is) (init : R [] [] [] s₀ t₀)
    (step : ∀ is os ps s t i, A (is ++ [i]) → R is os ps s t →
      ∃ s' o t' p, M.step s i = some (s', o) ∧ N.step t i = some (t', p) ∧
        R (is ++ [i]) (os ++ [o]) (ps ++ [p]) s' t') :
    ∀ is, A is → ∃ s os t ps, M.run s₀ is = some (s, os) ∧ N.run t₀ is = some (t, ps) ∧
      R is os ps s t := by
  intro is
  induction is using List.reverseRecOn with
  | nil => intro _; exact ⟨s₀, [], t₀, [], rfl, rfl, init⟩
  | append_singleton is i ih =>
    intro hok
    obtain ⟨s, os, t, ps, hM, hN, hR⟩ := ih (hinit is i hok)
    obtain ⟨s', o, t', p, hs, ht, hR'⟩ := step is os ps s t i hok hR
    exact ⟨s', os ++ [o], t', ps ++ [p], M.run_snoc.mpr ⟨s, os, o, hM, hs, rfl⟩,
      N.run_snoc.mpr ⟨t, ps, p, hN, ht, rfl⟩, hR'⟩

/-- **The unseen inputs do not matter.**  `visible` are the inputs that are seen and `shown`
their outputs; `R` relates states that look the same. -/
theorem unwinding {visible : ι → Bool} {shown : ω → Bool} {R : σ → σ → Prop}
    (outputs : ∀ s i s' o, M.step s i = some (s', o) → shown o = visible i)
    (consistent : ∀ s t i s' o, R s t → visible i = true → M.step s i = some (s', o) →
      ∃ t', M.step t i = some (t', o) ∧ R s' t')
    (respects : ∀ s t i s' o, R s t → visible i = false → M.step s i = some (s', o) → R s' t)
    {is : List ι} : ∀ {s s' t : σ} {os : List ω}, R s t → M.run s is = some (s', os) →
      ∃ t', M.run t (is.filter visible) = some (t', os.filter shown) ∧ R s' t' := by
  induction is with
  | nil =>
    intro s s' t os hR h
    cases h
    exact ⟨t, rfl, hR⟩
  | cons i is ih =>
    intro s s' t os hR h
    obtain ⟨u, o, os, hs, hr, rfl⟩ := M.run_cons.mp h
    have hshown := outputs s i u o hs
    cases hi : visible i with
    | true =>
      obtain ⟨t₁, ht, hR₁⟩ := consistent s t i u o hR hi hs
      obtain ⟨t', ht', hR'⟩ := ih hR₁ hr
      refine ⟨t', ?_, hR'⟩
      rw [List.filter_cons_of_pos hi, List.filter_cons_of_pos (hshown.trans hi)]
      exact M.run_cons.mpr ⟨t₁, o, _, ht, ht', rfl⟩
    | false =>
      obtain ⟨t', ht', hR'⟩ := ih (respects s t i u o hR hi hs) hr
      refine ⟨t', ?_, hR'⟩
      rw [List.filter_cons_of_neg (by rw [hi]; decide),
        List.filter_cons_of_neg (by rw [hshown, hi]; decide)]
      exact ht'

end Machine

end EdgeShield.Lib
