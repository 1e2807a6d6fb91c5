import EdgeShield.Lib.Machine

/-!
# A producer, a bounded channel and a fan-out

A machine whose steps may put out an item, a channel that holds `capacity` items, and a
consumer that takes one item at a time and hands it to every receiver, one after the other.
The producer waits when the channel is full.  Without receivers there is no consumer: the
channel is closed and takes no item.  `piped` is the machine of the two tasks, their steps in
any order.

What there is to hand out is conserved: what was served and what is `unserved` are together
all items sent, each to each receiver, in this order (`conserved_run`).  From this follow the
order of deliveries, the agreement of the receivers and a bound on what is outstanding.
`run_produced` takes a run of the pipe to the run of the producer in it.

A consumer that does not come back stops the producer (`length_sent_of_stalled`), and one
that does always gets through (`run_drain`).
-/

namespace EdgeShield.Lib

/-- An item that is being handed out: the receiver that has it now and those behind it. -/
structure Serving (α ν : Type*) where
  item : α
  next : ν
  rest : List ν

structure PipeState (σ α ν : Type*) where
  producer : σ
  queue : List α
  serving : Option (Serving α ν)

inductive PipeAction (ι ρ : Type*) where
  | produce (i : ι)
  | take
  | deliver (answer : ρ)

inductive PipeEvent (α ν ρ : Type*) where
  | sent (x : α)
  | served (n : ν) (x : α) (answer : ρ)
  | nothing

section Pipe

variable {σ ι α ν ρ : Type*}

def PipeState.start (t : σ) : PipeState σ α ν where
  producer := t
  queue := []
  serving := none

variable (M : Machine σ ι (Option α)) (capacity : Nat) (receivers : List ν)

def pipeStep (s : PipeState σ α ν) :
    PipeAction ι ρ → Option (PipeState σ α ν × PipeEvent α ν ρ)
  | .produce i =>
    match M.step s.producer i with
    | none => none
    | some (t, none) => some ({ s with producer := t }, .nothing)
    | some (t, some x) =>
      if receivers.isEmpty then some ({ s with producer := t }, .sent x)
      else if s.queue.length < capacity then
        some ({ s with producer := t, queue := s.queue ++ [x] }, .sent x)
      else none
  | .take =>
    match s.serving, s.queue, receivers with
    | none, x :: queue, n :: rest =>
      some ({ s with queue := queue, serving := some ⟨x, n, rest⟩ }, .nothing)
    | _, _, _ => none
  | .deliver answer =>
    match s.serving with
    | some ⟨x, n, []⟩ => some ({ s with serving := none }, .served n x answer)
    | some ⟨x, n, n' :: rest⟩ =>
      some ({ s with serving := some ⟨x, n', rest⟩ }, .served n x answer)
    | none => none

/-- The producer and the consumer at the two ends of the channel. -/
def piped : Machine (PipeState σ α ν) (PipeAction ι ρ) (PipeEvent α ν ρ) where
  step := pipeStep M capacity receivers

inductive PipeStep (s : PipeState σ α ν) :
    PipeAction ι ρ → PipeState σ α ν → PipeEvent α ν ρ → Prop where
  | quiet (i : ι) (t : σ) (step : M.step s.producer i = some (t, none)) :
      PipeStep s (.produce i) { s with producer := t } .nothing
  | drop (i : ι) (t : σ) (x : α) (step : M.step s.producer i = some (t, some x))
      (closed : receivers = []) : PipeStep s (.produce i) { s with producer := t } (.sent x)
  | send (i : ι) (t : σ) (x : α) (step : M.step s.producer i = some (t, some x))
      (opened : receivers ≠ []) (room : s.queue.length < capacity) :
      PipeStep s (.produce i) { s with producer := t, queue := s.queue ++ [x] } (.sent x)
  | take (x : α) (queue : List α) (n : ν) (rest : List ν) (free : s.serving = none)
      (waiting : s.queue = x :: queue) (all : receivers = n :: rest) :
      PipeStep s .take { s with queue := queue, serving := some ⟨x, n, rest⟩ } .nothing
  | last (answer : ρ) (x : α) (n : ν) (serving : s.serving = some ⟨x, n, []⟩) :
      PipeStep s (.deliver answer) { s with serving := none } (.served n x answer)
  | deliver (answer : ρ) (x : α) (n n' : ν) (rest : List ν)
      (serving : s.serving = some ⟨x, n, n' :: rest⟩) :
      PipeStep s (.deliver answer) { s with serving := some ⟨x, n', rest⟩ } (.served n x answer)

theorem pipeStep_of_step {s s' : PipeState σ α ν} {a : PipeAction ι ρ} {o : PipeEvent α ν ρ}
    (h : (piped M capacity receivers).step s a = some (s', o)) :
    PipeStep M capacity receivers s a s' o := by
  simp only [piped] at h
  cases a with
  | produce i =>
    simp only [pipeStep] at h
    split at h
    · cases h
    · next t hs => cases h; exact .quiet i t hs
    · next t x hs =>
      split at h
      · next hc => cases h; exact .drop i t x hs (List.isEmpty_iff.mp hc)
      · next hc =>
        split at h
        · next hroom =>
          cases h
          exact .send i t x hs (fun he => hc (List.isEmpty_iff.mpr he)) hroom
        · cases h
  | take =>
    simp only [pipeStep] at h
    split at h
    · next x queue n rest hfree hq => cases h; exact .take x queue n rest hfree hq rfl
    · cases h
  | deliver answer =>
    simp only [pipeStep] at h
    split at h
    · next x n hs => cases h; exact .last answer x n hs
    · next x n n' rest hs => cases h; exact .deliver answer x n n' rest hs
    · cases h

variable {M capacity receivers}

/-! ### Conservation -/

def sent (outs : List (PipeEvent α ν ρ)) : List α :=
  outs.filterMap fun
    | .sent x => some x
    | _ => none

def served (outs : List (PipeEvent α ν ρ)) : List ((ν × α) × ρ) :=
  outs.filterMap fun
    | .served n x answer => some ((n, x), answer)
    | _ => none

def toAll (receivers : List ν) (xs : List α) : List (ν × α) :=
  xs.flatMap fun x => receivers.map (·, x)

theorem toAll_append (receivers : List ν) (xs ys : List α) :
    toAll receivers (xs ++ ys) = toAll receivers xs ++ toAll receivers ys :=
  List.flatMap_append

theorem toAll_cons (receivers : List ν) (x : α) (xs : List α) :
    toAll receivers (x :: xs) = receivers.map (·, x) ++ toAll receivers xs :=
  List.flatMap_cons

@[simp] theorem length_toAll (receivers : List ν) (xs : List α) :
    (toAll receivers xs).length = xs.length * receivers.length := by
  induction xs with
  | nil => simp [toAll]
  | cons x xs ih =>
    rw [toAll_cons, List.length_append, ih, List.length_map, List.length_cons, Nat.succ_mul,
      Nat.add_comm]

def Serving.left (s : Serving α ν) : List (ν × α) := (s.next :: s.rest).map (·, s.item)

def unserved (receivers : List ν) (s : PipeState σ α ν) : List (ν × α) :=
  (s.serving.elim [] Serving.left) ++ toAll receivers s.queue

/-- Served and unserved are everything, the channel keeps its size, and the item in hand has
no more receivers left than there are. -/
structure Conserved (capacity : Nat) (receivers : List ν) (outs : List (PipeEvent α ν ρ))
    (s : PipeState σ α ν) : Prop where
  all : (served outs).map Prod.fst ++ unserved receivers s = toAll receivers (sent outs)
  queue : s.queue.length ≤ capacity
  left : (s.serving.elim [] Serving.left).length ≤ receivers.length

theorem Conserved.step {outs : List (PipeEvent α ν ρ)} {s s' : PipeState σ α ν}
    {a : PipeAction ι ρ} {o : PipeEvent α ν ρ} (h : Conserved capacity receivers outs s)
    (hs : PipeStep M capacity receivers s a s' o) :
    Conserved capacity receivers (outs ++ [o]) s' := by
  have hsent : sent (outs ++ [o]) = sent outs ++ sent [o] := List.filterMap_append
  have hserved : served (outs ++ [o]) = served outs ++ served [o] := List.filterMap_append
  have hall := h.all
  cases hs with
  | quiet i t step =>
    refine ⟨?_, h.queue, h.left⟩
    rw [hsent, hserved]
    simpa [sent, served, unserved] using hall
  | drop i t x step closed =>
    subst closed
    refine ⟨?_, h.queue, h.left⟩
    have hnil : toAll ([] : List ν) [x] = [] := rfl
    rw [hsent, hserved, toAll_append]
    simpa [sent, served, unserved, hnil] using hall
  | send i t x step opened room =>
    refine ⟨?_, ?_, h.left⟩
    · rw [hsent, hserved, toAll_append, ← hall]
      simp [sent, served, unserved, toAll_append]
    · rw [List.length_append]
      exact room
  | take x queue n rest free waiting all =>
    subst all
    have hlen := h.queue
    rw [waiting, List.length_cons] at hlen
    refine ⟨?_, Nat.le_of_succ_le hlen, ?_⟩
    · rw [hsent, hserved]
      simp only [unserved, free, waiting, Option.elim_none, List.nil_append, toAll_cons] at hall
      simpa [sent, served, unserved, Serving.left] using hall
    · simp [Serving.left]
  | last answer x n serving =>
    refine ⟨?_, h.queue, Nat.zero_le _⟩
    rw [hsent, hserved]
    simp only [unserved, serving, Option.elim_some, Serving.left] at hall
    simpa [sent, served, unserved] using hall
  | deliver answer x n n' rest serving =>
    have hleft := h.left
    simp only [serving, Option.elim_some, Serving.left, List.length_map, List.length_cons] at hleft
    refine ⟨?_, h.queue, ?_⟩
    · rw [hsent, hserved]
      simp only [unserved, serving, Option.elim_some, Serving.left] at hall
      simpa [sent, served, unserved, Serving.left] using hall
    · simp only [Option.elim_some, Serving.left, List.length_map, List.length_cons]
      omega

/-- **Nothing is lost, doubled or reordered.** -/
theorem conserved_run {t : σ} {s : PipeState σ α ν} {acts : List (PipeAction ι ρ)}
    {outs : List (PipeEvent α ν ρ)}
    (h : (piped M capacity receivers).run (.start t) acts = some (s, outs)) :
    Conserved capacity receivers outs s := by
  refine (piped M capacity receivers).run_induction
    (P := fun _ outs s => Conserved capacity receivers outs s) ?_ ?_ h
  · exact ⟨rfl, Nat.zero_le _, Nat.zero_le _⟩
  · intro _ _ _ _ _ _ _ hc hs
    exact hc.step (pipeStep_of_step M capacity receivers hs)

theorem Conserved.length_unserved_le {outs : List (PipeEvent α ν ρ)} {s : PipeState σ α ν}
    (h : Conserved capacity receivers outs s) :
    (unserved receivers s).length ≤ (capacity + 1) * receivers.length := by
  rw [unserved, List.length_append, length_toAll, Nat.add_mul, Nat.one_mul, Nat.add_comm]
  exact Nat.add_le_add (Nat.mul_le_mul_right _ h.queue) h.left

/-! ### The producer -/

def produced (acts : List (PipeAction ι ρ)) : List ι :=
  acts.filterMap fun
    | .produce i => some i
    | _ => none

/-- **The pipe does not disturb the producer**: in a run of the pipe it makes a run of its
own, and the items it puts out are the ones that are sent. -/
theorem run_produced {t : σ} {s : PipeState σ α ν} {acts : List (PipeAction ι ρ)}
    {outs : List (PipeEvent α ν ρ)}
    (h : (piped M capacity receivers).run (.start t) acts = some (s, outs)) :
    ∃ os, M.run t (produced acts) = some (s.producer, os) ∧ os.filterMap id = sent outs := by
  refine (piped M capacity receivers).run_induction (P := fun acts outs s =>
    ∃ os, M.run t (produced acts) = some (s.producer, os) ∧ os.filterMap id = sent outs) ?_ ?_ h
  · exact ⟨[], rfl, rfl⟩
  intro acts outs s a s' o _ ih hs
  obtain ⟨os, hr, hos⟩ := ih
  have happ : produced (acts ++ [a]) = produced acts ++ produced [a] := List.filterMap_append
  have hsent : sent (outs ++ [o]) = sent outs ++ sent [o] := List.filterMap_append
  have hmore : ∀ {i : ι} {u : σ} {r : Option α}, produced [a] = [i] →
      M.step s.producer i = some (u, r) → sent [o] = ([r] : List (Option α)).filterMap id →
      ∃ os, M.run t (produced (acts ++ [a])) = some (u, os) ∧
        os.filterMap id = sent (outs ++ [o]) := by
    intro i u r hi hstep hr'
    refine ⟨os ++ [r], ?_, ?_⟩
    · rw [happ, hi]
      exact M.run_snoc.mpr ⟨_, _, _, hr, hstep, rfl⟩
    · rw [List.filterMap_append, hos, hsent, hr']
  have hsame : produced [a] = [] → sent [o] = [] →
      ∃ os, M.run t (produced (acts ++ [a])) = some (s.producer, os) ∧
        os.filterMap id = sent (outs ++ [o]) := by
    intro ha ho
    exact ⟨os, by rw [happ, ha, List.append_nil, hr], by rw [hsent, ho, List.append_nil, hos]⟩
  cases pipeStep_of_step M capacity receivers hs with
  | quiet i u step => exact hmore rfl step rfl
  | drop i u x step closed => exact hmore rfl step rfl
  | send i u x step opened room => exact hmore rfl step rfl
  | take x queue n rest free waiting all => exact hsame rfl rfl
  | last answer x n serving => exact hsame rfl rfl
  | deliver answer x n n' rest serving => exact hsame rfl rfl

theorem run_of_no_receivers {t u : σ} {is : List ι} {os : List (Option α)}
    (h : M.run t is = some (u, os)) :
    ∃ outs : List (PipeEvent α ν ρ),
      (piped M capacity []).run (.start t) (is.map .produce) = some (.start u, outs) ∧
        sent outs = os.filterMap id := by
  induction is generalizing t os with
  | nil =>
    cases h
    exact ⟨[], rfl, rfl⟩
  | cons i is ih =>
    obtain ⟨t', o, os', hs, hr, rfl⟩ := M.run_cons.mp h
    obtain ⟨outs, hrun, hsent⟩ := ih hr
    cases o with
    | none =>
      refine ⟨.nothing :: outs, (piped M capacity []).run_cons.mpr ⟨.start t', _, _, ?_, hrun, rfl⟩,
        hsent⟩
      simp only [piped, pipeStep, PipeState.start, hs]
    | some x =>
      refine ⟨.sent x :: outs, (piped M capacity []).run_cons.mpr ⟨.start t', _, _, ?_, hrun, rfl⟩,
        congrArg (x :: ·) hsent⟩
      simp only [piped, pipeStep, PipeState.start, hs, List.isEmpty_nil, if_true]

/-! ### A consumer that hangs, and one that does not -/

def backlog (s : PipeState σ α ν) : Nat := s.queue.length + s.serving.toList.length

theorem backlog_of_stalled (hne : receivers ≠ []) {s s' : PipeState σ α ν}
    {acts : List (PipeAction ι ρ)} {outs : List (PipeEvent α ν ρ)}
    (h : (piped M capacity receivers).run s acts = some (s', outs))
    (hstall : ∀ a ∈ acts, ∀ answer, a ≠ .deliver answer) :
    backlog s' = backlog s + (sent outs).length := by
  induction acts generalizing s outs with
  | nil => cases h; rfl
  | cons a acts ih =>
    obtain ⟨u, o, outs, hs, hr, rfl⟩ := (piped M capacity receivers).run_cons.mp h
    have hsent : sent (o :: outs) = sent [o] ++ sent outs :=
      @List.filterMap_append _ _ [o] outs _
    have hrest := ih hr fun a' ha' => hstall a' (List.mem_cons_of_mem _ ha')
    rw [hsent, List.length_append, hrest]
    cases pipeStep_of_step M capacity receivers hs with
    | quiet i t step => simp [backlog, sent]
    | drop i t x step closed => exact absurd closed hne
    | send i t x step opened room =>
      simp only [backlog, sent, List.length_append, List.filterMap_cons, List.filterMap_nil,
        List.length_cons, List.length_nil]
      omega
    | take x queue n rest free waiting all =>
      simp only [backlog, sent, free, waiting, Option.toList_some, Option.toList_none,
        List.filterMap_cons, List.filterMap_nil, List.length_cons, List.length_nil]
      omega
    | last answer x n serving => exact absurd rfl (hstall _ List.mem_cons_self answer)
    | deliver answer x n n' rest serving =>
      exact absurd rfl (hstall _ List.mem_cons_self answer)

theorem queue_le_of_run {s s' : PipeState σ α ν} {acts : List (PipeAction ι ρ)}
    {outs : List (PipeEvent α ν ρ)} (hq : s.queue.length ≤ capacity)
    (h : (piped M capacity receivers).run s acts = some (s', outs)) :
    s'.queue.length ≤ capacity := by
  refine (piped M capacity receivers).run_induction
    (P := fun _ _ s => s.queue.length ≤ capacity) hq ?_ h
  intro _ _ s a s' o _ hs hstep
  cases pipeStep_of_step M capacity receivers hstep with
  | send i t x step opened room => rw [List.length_append]; exact room
  | take x queue n rest free waiting all =>
    rw [waiting, List.length_cons] at hs
    exact Nat.le_of_succ_le hs
  | _ => exact hs

/-- **A consumer that hangs stops the producer**: it sends what fits on the channel and one
item more. -/
theorem length_sent_of_stalled (hne : receivers ≠ []) {s s' : PipeState σ α ν}
    {acts : List (PipeAction ι ρ)} {outs : List (PipeEvent α ν ρ)}
    (hq : s.queue.length ≤ capacity)
    (h : (piped M capacity receivers).run s acts = some (s', outs))
    (hstall : ∀ a ∈ acts, ∀ answer, a ≠ .deliver answer) :
    backlog s + (sent outs).length ≤ capacity + 1 := by
  rw [← backlog_of_stalled hne h hstall, backlog]
  have hserving : s'.serving.toList.length ≤ 1 := by
    cases s'.serving with
    | none => exact Nat.zero_le _
    | some x => exact Nat.le_refl 1
  exact Nat.add_le_add (queue_le_of_run hq h) hserving

variable (M capacity receivers) in
theorem run_serving (t : σ) (queue : List α) (x : α) (answer : ν → α → ρ) (rest : List ν) :
    ∀ n, ∃ (acts : List (PipeAction ι ρ)) (outs : List (PipeEvent α ν ρ)),
      (piped M capacity receivers).run ⟨t, queue, some ⟨x, n, rest⟩⟩ acts =
        some (⟨t, queue, none⟩, outs) ∧ produced acts = [] ∧ sent outs = [] ∧
      served outs = ((n :: rest).map (·, x)).map fun d => (d, answer d.1 d.2) := by
  induction rest with
  | nil =>
    intro n
    exact ⟨[.deliver (answer n x)], [.served n x (answer n x)], rfl, rfl, rfl, rfl⟩
  | cons n' rest ih =>
    intro n
    obtain ⟨acts, outs, hr, hprod, hsent, hserved⟩ := ih n'
    refine ⟨.deliver (answer n x) :: acts, .served n x (answer n x) :: outs,
      (piped M capacity receivers).run_cons.mpr ⟨_, _, _, rfl, hr, rfl⟩, hprod, hsent, ?_⟩
    exact congrArg (((n, x), answer n x) :: ·) hserved

variable (M capacity) in
theorem run_queue (hne : receivers ≠ []) (t : σ) (answer : ν → α → ρ) (queue : List α) :
    ∃ (acts : List (PipeAction ι ρ)) (outs : List (PipeEvent α ν ρ)),
      (piped M capacity receivers).run ⟨t, queue, none⟩ acts = some (.start t, outs) ∧
        produced acts = [] ∧ sent outs = [] ∧
        served outs = (toAll receivers queue).map fun d => (d, answer d.1 d.2) := by
  induction queue with
  | nil => exact ⟨[], [], rfl, rfl, rfl, rfl⟩
  | cons x queue ih =>
    obtain ⟨n, rest, rfl⟩ := List.exists_cons_of_ne_nil hne
    obtain ⟨acts₂, outs₂, hr₂, hprod₂, hsent₂, hserved₂⟩ := ih
    obtain ⟨acts₁, outs₁, hr₁, hprod₁, hsent₁, hserved₁⟩ :=
      run_serving M capacity (n :: rest) t queue x answer rest n
    have hrun := (piped M capacity (n :: rest)).run_append.mpr ⟨_, _, _, hr₁, hr₂, rfl⟩
    refine ⟨.take :: (acts₁ ++ acts₂), .nothing :: (outs₁ ++ outs₂),
      (piped M capacity (n :: rest)).run_cons.mpr ⟨_, _, _, rfl, hrun, rfl⟩, ?_, ?_, ?_⟩
    · show produced (acts₁ ++ acts₂) = []
      rw [produced, List.filterMap_append]
      exact List.append_eq_nil_iff.mpr ⟨hprod₁, hprod₂⟩
    · show sent (outs₁ ++ outs₂) = []
      rw [sent, List.filterMap_append]
      exact List.append_eq_nil_iff.mpr ⟨hsent₁, hsent₂⟩
    · show served (outs₁ ++ outs₂) = _
      rw [served, List.filterMap_append, toAll_cons, List.map_append]
      exact congrArg₂ (· ++ ·) hserved₁ hserved₂

/-- **A consumer that comes back gets through**: from every state it can hand out all that is
on its way, whatever the receivers answer, and the producer stays where it is. -/
theorem run_drain (hne : receivers ≠ []) (s : PipeState σ α ν) (answer : ν → α → ρ) :
    ∃ (acts : List (PipeAction ι ρ)) (outs : List (PipeEvent α ν ρ)),
      (piped M capacity receivers).run s acts = some (.start s.producer, outs) ∧
        produced acts = [] ∧ sent outs = [] ∧
        served outs = (unserved receivers s).map fun d => (d, answer d.1 d.2) := by
  obtain ⟨t, queue, serving⟩ := s
  obtain ⟨acts₂, outs₂, hr₂, hprod₂, hsent₂, hserved₂⟩ :=
    run_queue M capacity hne t answer queue
  cases serving with
  | none => exact ⟨acts₂, outs₂, hr₂, hprod₂, hsent₂, hserved₂⟩
  | some x =>
    obtain ⟨x, n, rest⟩ := x
    obtain ⟨acts₁, outs₁, hr₁, hprod₁, hsent₁, hserved₁⟩ :=
      run_serving M capacity receivers t queue x answer rest n
    refine ⟨acts₁ ++ acts₂, outs₁ ++ outs₂,
      (piped M capacity receivers).run_append.mpr ⟨_, _, _, hr₁, hr₂, rfl⟩, ?_, ?_, ?_⟩
    · rw [produced, List.filterMap_append]
      exact List.append_eq_nil_iff.mpr ⟨hprod₁, hprod₂⟩
    · rw [sent, List.filterMap_append]
      exact List.append_eq_nil_iff.mpr ⟨hsent₁, hsent₂⟩
    · rw [served, List.filterMap_append, unserved, List.map_append]
      exact congrArg₂ (· ++ ·) hserved₁ hserved₂

end Pipe

end EdgeShield.Lib
