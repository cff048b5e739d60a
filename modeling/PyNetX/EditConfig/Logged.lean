import PyNetX.EditConfig.Devices

/-! One `handle_device` task under any interleaving: its setup, its loop, its frames. -/
namespace PyNetX.EditConfig

open Notification

/-- The frames logged for task `i`, oldest first. -/
def loggedBy (i : Nat) (s : State) : List (List Char) :=
  (s.logged.filter (·.1 = i)).map (·.2)

variable {roster : List Device} {s : State} {d : Device} {i : Nat} {a : Awaited}

theorem handleDevice_logged (d : Device) (i : Nat) (a : Awaited) (s : State) :
    (handleDevice d i a s).logged = s.logged ∨
      ∃ f, (handleDevice d i a s).logged = s.logged ++ [(i, f)] := by
  unfold handleDevice
  split
  next => split <;> simp
  next => simp
  next => simp
  next => simp
  next => split <;> simp
  next => simp
  next => simp

theorem loggedBy_step_of_ne {j : Nat} (hji : j ≠ i) (s : State) (a : Awaited) :
    loggedBy i (step roster s j a) = loggedBy i s := by
  cases hd : roster[j]? with
  | none => rw [step_of_getElem?_eq_none hd]
  | some d =>
    simp only [step, hd]
    rcases handleDevice_logged d j a s with h | ⟨f, h⟩ <;> simp [loggedBy, h, hji]

theorem cached_step (h : s.connections d.hostname ≠ none) (j : Nat) (a : Awaited) :
    (step roster s j a).connections d.hostname ≠ none := by
  cases hd : roster[j]? with
  | none => rwa [step_of_getElem?_eq_none hd]
  | some d' =>
    rcases (step_effect hd s a).cache with ⟨hc, -⟩ | ⟨c, -, -, hc, -⟩
    · rwa [hc]
    · rw [hc, Function.update_apply]
      split <;> simp [h]

theorem listen_receiving {c c' : Client} {b : List Char}
    (h : (s.listen d i c).tasks i = .receiving c' b) : s.connections d.hostname ≠ none := by
  unfold State.listen at h
  split at h <;> simp_all

theorem handleDevice_receiving {c : Client} {b : List Char}
    (h : (handleDevice d i a s).tasks i = .receiving c b) :
    (∃ c' b', s.tasks i = .receiving c' b') ∧ (handleDevice d i a s).connections = s.connections ∨
      (handleDevice d i a s).connections d.hostname ≠ none := by
  revert h
  unfold handleDevice
  split
  next => split <;> simp
  next => simp
  next => simp
  next => exact fun h => .inr (by simpa using listen_receiving h)
  next c' buf hs =>
    split
    next => exact fun _ => .inl ⟨⟨c', buf, hs⟩, rfl⟩
    next => exact fun h => .inr (by simpa using listen_receiving h)
  next hs => simp [hs]
  next => simp

/-- A task in its notification loop has its host in the cache. -/
def ReceivingCached (roster : List Device) (s : State) : Prop :=
  ∀ i d c b, roster[i]? = some d → s.tasks i = .receiving c b → s.connections d.hostname ≠ none

theorem receivingCached_step (h : ReceivingCached roster s) (j : Nat) (a : Awaited) :
    ReceivingCached roster (step roster s j a) := by
  intro i d c b hi hs
  cases hd : roster[j]? with
  | none => rw [step_of_getElem?_eq_none hd] at hs ⊢; exact h i d c b hi hs
  | some d' =>
    by_cases hji : j = i
    · subst hji
      obtain rfl : d' = d := Option.some.inj (hd.symm.trans hi)
      simp only [step, hd] at hs ⊢
      rcases handleDevice_receiving hs with ⟨⟨c', b', hs'⟩, hc⟩ | hc
      · rw [hc]; exact h j d' c' b' hi hs'
      · exact hc
    · rw [(step_effect hd s a).others i (Ne.symm hji)] at hs
      exact cached_step (h i d c b hi hs) j a

theorem receivingCached_reachable (h : Reachable roster s) : ReceivingCached roster s := by
  induction h with
  | initial => intro i d c b _ hs; simp [initial] at hs
  | step j a _ ih => exact receivingCached_step ih j a

theorem handleDevice_receive {c : Client} {buf : List Char} (hs : s.tasks i = .receiving c buf)
    (hc : s.connections d.hostname ≠ none) :
    (handleDevice d i a s).tasks i = .receiving c (receive buf a).1 ∧
    loggedBy i (handleDevice d i a s) = loggedBy i s ++ (receive buf a).2.toList ∧
    (handleDevice d i a s).connections = s.connections := by
  obtain ⟨c', hc'⟩ := Option.ne_none_iff_exists'.1 hc
  simp only [handleDevice, hs]
  cases hr : receive buf a with
  | mk buf' out =>
    cases out with
    | none => simp [loggedBy]
    | some f =>
      have h0 : buf' = [] := by simpa [hr] using @receive_fst_eq_nil buf a
      simp [State.listen, hc', loggedBy, h0]

/-- A task in its loop with its host cached stays there on its client, holding the pending
buffer, and logs the frames of `Notification` over its own results. -/
theorem loop_run (hd : roster[i]? = some d) (labels : List (Nat × Awaited)) :
    ∀ s (c : Client) (buf : List Char), s.tasks i = .receiving c buf →
      s.connections d.hostname ≠ none →
      (run roster s labels).tasks i = .receiving c (pending buf (resultsFor i labels)) ∧
      loggedBy i (run roster s labels) = loggedBy i s ++ frames buf (resultsFor i labels) := by
  induction labels with
  | nil => intro s c buf hs _; simp [run, resultsFor, frames, pending, hs]
  | cons l labels ih =>
    obtain ⟨j, a⟩ := l
    intro s c buf hs hc
    by_cases hji : j = i
    · subst hji
      obtain ⟨ht, hl, hcon⟩ := @handleDevice_receive _ d _ a _ _ hs hc
      have hstep : step roster s j a = handleDevice d j a s := by simp [step, hd]
      obtain ⟨htask, hlog⟩ := ih _ c _ ht (by rwa [hcon])
      simp only [run, hstep]
      rw [htask, hlog, hl, resultsFor_cons, if_pos rfl]
      simp [frames, pending]
    · have ht : (step roster s j a).tasks i = s.tasks i := by
        cases hj : roster[j]? with
        | none => rw [step_of_getElem?_eq_none hj]
        | some d' => exact (step_effect hj s a).others i (Ne.symm hji)
      obtain ⟨htask, hlog⟩ := ih _ c buf (ht.trans hs) (cached_step hc j a)
      simp only [run]
      rw [htask, hlog, loggedBy_step_of_ne hji, resultsFor_cons, if_neg hji]
      exact ⟨rfl, rfl⟩

/-- From a reachable state with task `i` in its loop, the frames it logs are those the loop
of `Notification` logs over its own results. -/
theorem logged_frames (h : Reachable roster s) (hd : roster[i]? = some d) {c : Client}
    {buf : List Char} (hs : s.tasks i = .receiving c buf) (labels : List (Nat × Awaited)) :
    loggedBy i (run roster s labels) = loggedBy i s ++ frames buf (resultsFor i labels) :=
  (loop_run hd labels s c buf hs (receivingCached_reachable h i d c buf hd hs)).2

theorem logged_frames_two_devices :
    let roster : List Device := [⟨"h", 830, "u", "p"⟩, ⟨"g", 830, "u", "p"⟩]
    let s := run roster initial [(0, .raised), (0, .returned []), (0, .returned []),
      (0, .returned [])]
    let labels : List (Nat × Awaited) :=
      [(0, .returned "<a>".toList), (1, .raised), (0, .returned "]]>]]>".toList)]
    (Reachable roster s ∧ roster[0]? = some ⟨"h", 830, "u", "p"⟩ ∧
      s.tasks 0 = .receiving ⟨⟨"h", 830, "u", "p"⟩, 0⟩ []) ∧
    loggedBy 0 (run roster s labels) = loggedBy 0 s ++ frames [] (resultsFor 0 labels) := by
  intro roster s labels
  have hs : s.tasks 0 = .receiving ⟨⟨"h", 830, "u", "p"⟩, 0⟩ [] := by decide
  exact ⟨⟨Reachable.initial.run _, rfl, hs⟩, logged_frames (Reachable.initial.run _) rfl hs _⟩

/-- The notification loop never ends and never changes client, whatever the receives give:
a dead session is never replaced. -/
theorem loop_keeps_client (h : Reachable roster s) (hd : roster[i]? = some d) {c : Client}
    {buf : List Char} (hs : s.tasks i = .receiving c buf) (labels : List (Nat × Awaited)) :
    (run roster s labels).tasks i = .receiving c (pending buf (resultsFor i labels)) :=
  (loop_run hd labels s c buf hs (receivingCached_reachable h i d c buf hd hs)).1

theorem loop_keeps_client_two_devices :
    let roster : List Device := [⟨"h", 830, "u", "p"⟩, ⟨"g", 830, "u", "p"⟩]
    let s := run roster initial [(0, .raised), (0, .returned []), (0, .returned []),
      (0, .returned [])]
    let labels : List (Nat × Awaited) :=
      [(0, .returned "<a>".toList), (0, .raised), (1, .raised), (0, .raised)]
    (Reachable roster s ∧ roster[0]? = some ⟨"h", 830, "u", "p"⟩ ∧
      s.tasks 0 = .receiving ⟨⟨"h", 830, "u", "p"⟩, 0⟩ []) ∧
    (run roster s labels).tasks 0 =
      .receiving ⟨⟨"h", 830, "u", "p"⟩, 0⟩ (pending [] (resultsFor 0 labels)) := by
  intro roster s labels
  have hs : s.tasks 0 = .receiving ⟨⟨"h", 830, "u", "p"⟩, 0⟩ [] := by rfl
  have hr : Reachable roster s := Reachable.initial.run _
  exact ⟨⟨hr, rfl, hs⟩, loop_keeps_client hr rfl hs labels⟩

/-- Resumptions left before the task is in its loop or has ended. -/
def Pc.turns : Pc → Nat
  | .start => 4
  | .connecting _ => 3
  | .gettingConfig _ => 2
  | .subscribing _ => 1
  | .receiving _ _ | .finished => 0

theorem Pc.turns_le_four (p : Pc) : p.turns ≤ 4 := by
  cases p <;> simp [Pc.turns]

theorem Pc.looping_of_turns_eq_zero {p : Pc} (h : p.turns = 0) :
    (∃ c buf, p = .receiving c buf) ∨ p = .finished := by
  cases p <;> simp_all [Pc.turns]

theorem listen_turns (s : State) (d : Device) (i : Nat) (c : Client) :
    ((s.listen d i c).tasks i).turns = 0 := by
  unfold State.listen
  split <;> simp [Pc.turns]

theorem handleDevice_turns (d : Device) (i : Nat) (a : Awaited) (s : State) :
    ((handleDevice d i a s).tasks i).turns ≤ (s.tasks i).turns - 1 := by
  unfold handleDevice
  split
  next h => split <;> simp [h, Pc.turns]
  next h => simp [h, Pc.turns]
  next h => simp [h, Pc.turns]
  next => simp [listen_turns]
  next =>
    split
    · simp [Pc.turns]
    · rw [listen_turns]; exact Nat.zero_le _
  next h => simp [h, Pc.turns]
  next => simp [Pc.turns]

theorem task_turns_step (hi : i < roster.length) (s : State) (j : Nat) (a : Awaited) :
    ((step roster s j a).tasks i).turns ≤ (s.tasks i).turns - if j = i then 1 else 0 := by
  by_cases hji : j = i
  · subst hji
    simpa [step, List.getElem?_eq_getElem hi] using handleDevice_turns roster[j] j a s
  · cases hj : roster[j]? with
    | none => simp [step_of_getElem?_eq_none hj, hji]
    | some d => simp [(step_effect hj s a).others i (Ne.symm hji), hji]

theorem task_turns_run (hi : i < roster.length) (labels : List (Nat × Awaited)) :
    ∀ s, ((run roster s labels).tasks i).turns ≤
      (s.tasks i).turns - (resultsFor i labels).length := by
  induction labels with
  | nil => intro s; simp [run, resultsFor]
  | cons l labels ih =>
    obtain ⟨j, a⟩ := l
    intro s
    have h1 := task_turns_step hi s j a
    have h2 := ih (step roster s j a)
    simp only [run, resultsFor_cons]
    by_cases hji : j = i
    · rw [if_pos hji] at h1 ⊢
      rw [List.length_cons]
      omega
    · rw [if_neg hji] at h1 ⊢
      omega

/-- From any state, after four of its own resumptions a task is in its loop or has ended,
whatever the other tasks do. -/
theorem setup_ends (hi : i < roster.length) (s : State) (labels : List (Nat × Awaited))
    (hl : 4 ≤ (resultsFor i labels).length) :
    (∃ c buf, (run roster s labels).tasks i = .receiving c buf) ∨
      (run roster s labels).tasks i = .finished := by
  apply Pc.looping_of_turns_eq_zero
  have := task_turns_run hi labels s
  have := (s.tasks i).turns_le_four
  omega

theorem setup_ends_shared_host :
    let roster : List Device := [⟨"h", 830, "u", "p"⟩, ⟨"h", 830, "u", "p"⟩]
    let labels : List (Nat × Awaited) := [(0, .raised), (1, .raised), (0, .returned []),
      (1, .returned []), (0, .returned []), (1, .raised), (0, .returned [])]
    (0 < roster.length ∧ 4 ≤ (resultsFor 0 labels).length) ∧
    ((∃ c buf, (run roster initial labels).tasks 0 = .receiving c buf) ∨
      (run roster initial labels).tasks 0 = .finished) :=
  ⟨⟨by decide, by decide⟩, setup_ends (by decide) _ _ (by decide)⟩

end PyNetX.EditConfig
