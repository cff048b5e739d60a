import PyNetX.GetMultiple.Refinement

/-! Progress: fetch batches settle, and the manager's loops end. -/
namespace PyNetX.GetMultiple

/-- How many more resumptions a `fetch_data` task can take before it returns. -/
def Fetch.turns : Fetch → Nat
  | .start _ => 3
  | .get _ _ => 2
  | .disconnect _ _ => 1
  | .done _ => 0

theorem Fetch.turns_le_three (t : Fetch) : t.turns ≤ 3 := by
  cases t <;> simp [Fetch.turns]

theorem Fetch.eq_done_of_turns_eq_zero {t : Fetch} (h : t.turns = 0) : ∃ b, t = .done b := by
  cases t <;> simp_all [Fetch.turns]

/-- The fetch task a label resumes, if any. -/
def Label.task? : Label → Option Nat
  | .task i _ => some i
  | _ => none

variable {devices : List Device} {w : World} {i : Nat} {t : Fetch}

theorem fetchData_turns (r : Awaited) (n : Net) (t : Fetch) :
    (fetchData r n t).2.turns ≤ t.turns - 1 := by
  cases t with
  | start key => simp only [fetchData]; split <;> simp [Fetch.turns]
  | get key c => simp [fetchData, Fetch.turns]
  | disconnect key c => cases r <;> simp [fetchData, Fetch.turns]
  | done b => simp [fetchData, Fetch.turns]

theorem fetch_turns_step (hi : w.tasks[i]? = some t) (l : Label) :
    ∃ t', (step devices w l).tasks[i]? = some t' ∧
      t'.turns ≤ t.turns - if l.task? = some i then 1 else 0 := by
  have hlt : i < w.tasks.length := (List.getElem?_eq_some_iff.1 hi).1
  cases l with
  | manager r => exact ⟨t, hi, by simp [Label.task?]⟩
  | fetcher =>
    simp only [step, Label.task?, reduceCtorEq, if_false, Nat.sub_zero]
    split
    · exact ⟨t, by rw [List.getElem?_append_left hlt, hi], le_rfl⟩
    · split <;> exact ⟨t, hi, le_rfl⟩
  | task j r =>
    simp only [step, Label.task?, Option.some.injEq]
    split
    next hj =>
      have hji : j ≠ i := by rintro rfl; simp [hi] at hj
      exact ⟨t, hi, by simp [hji]⟩
    next u hu =>
      by_cases hji : j = i
      · subst hji
        rw [hi] at hu
        cases hu
        exact ⟨_, List.getElem?_set_self hlt, by simpa using fetchData_turns r w.net t⟩
      · exact ⟨t, by rw [List.getElem?_set_ne hji, hi], by simp [hji]⟩

theorem fetch_turns_run (hi : w.tasks[i]? = some t) (labels : List Label) :
    ∃ t', (run devices w labels).tasks[i]? = some t' ∧
      t'.turns ≤ t.turns - labels.countP (·.task? = some i) := by
  induction labels generalizing w t with
  | nil => exact ⟨t, hi, by simp⟩
  | cons l labels ih =>
    obtain ⟨u, hu, hut⟩ := @fetch_turns_step devices w i t hi l
    obtain ⟨t', ht', htu⟩ := ih hu
    refine ⟨t', ht', ?_⟩
    by_cases hl : l.task? = some i
    · rw [List.countP_cons_of_pos _ _ (by simpa using hl)]
      rw [if_pos hl] at hut
      omega
    · rw [List.countP_cons_of_neg _ _ (by simpa using hl)]
      rw [if_neg hl] at hut
      omega

theorem step_task_frame (j : Nat) (r : Awaited) :
    (step devices w (.task j r)).fetcher = w.fetcher ∧
      (step devices w (.task j r)).tasks.length = w.tasks.length := by
  simp only [step]
  split <;> simp

/-- The tasks of the batch being gathered are all in the task list. -/
def BatchInRange (w : World) : Prop :=
  ∀ batch, w.fetcher = .gathering batch → ∀ i ∈ batch, i < w.tasks.length

theorem batchInRange_step (h : BatchInRange w) (l : Label) :
    BatchInRange (step devices w l) := by
  intro batch hb i hi
  cases l with
  | manager r => exact h batch hb i hi
  | fetcher =>
    simp only [step] at hb ⊢
    split at hb
    · simp only [Fetcher.gathering.injEq] at hb
      subst hb
      obtain ⟨k, hk, rfl⟩ := List.mem_map.1 hi
      simp only [List.mem_range] at hk
      simp; omega
    next batch' _ =>
      by_cases hs : settled w.tasks batch' = true
      · simp [hs] at hb
      · simp only [hs, if_false] at hb ⊢
        exact h batch hb i hi
  | task j r =>
    obtain ⟨hf, hl⟩ := @step_task_frame devices w j r
    rw [hl]
    exact h batch (hf ▸ hb) i hi

theorem batchInRange_reachable (h : Reachable devices w) : BatchInRange w := by
  induction h with
  | initial => intro batch hb; simp [initial] at hb
  | step l _ ih => exact batchInRange_step ih l

/-- Once each task of the batch being gathered has been resumed three times, all have
returned and the gather settles. -/
theorem batch_settles (h : Reachable devices w) {batch : List Nat}
    (hb : w.fetcher = .gathering batch) (labels : List Label)
    (hl : ∀ i ∈ batch, 3 ≤ labels.countP (·.task? = some i)) :
    (∀ i ∈ batch, ∃ b, (run devices w labels).tasks[i]? = some (.done b)) ∧
      settled (run devices w labels).tasks batch = true := by
  have hdone : ∀ i ∈ batch, ∃ b, (run devices w labels).tasks[i]? = some (.done b) := by
    intro i hi
    have hlt := batchInRange_reachable h batch hb i hi
    obtain ⟨t, ht⟩ : ∃ t, w.tasks[i]? = some t := ⟨_, List.getElem?_eq_getElem hlt⟩
    obtain ⟨t', ht', hturns⟩ := @fetch_turns_run devices w i t ht labels
    have h3 := hl i hi
    have hle := t.turns_le_three
    obtain ⟨b, rfl⟩ := Fetch.eq_done_of_turns_eq_zero (show t'.turns = 0 by omega)
    exact ⟨b, ht'⟩
  refine ⟨hdone, ?_⟩
  simp only [settled, Bool.or_eq_true, List.all_eq_true]
  refine .inl fun i hi => ?_
  obtain ⟨b, hb⟩ := hdone i hi
  simp [hb]

theorem batch_settles_two_devices :
    let devices : List Device := [⟨"h", 830, "u", "p"⟩, ⟨"g", 830, "u", "p"⟩]
    let w := run devices (initial devices) [.manager .raised, .manager (.returned []), .fetcher]
    let labels : List Label := [.task 0 .raised, .manager .raised, .task 1 .raised,
      .task 0 .raised, .task 1 .raised, .task 0 (.returned []), .task 1 .raised]
    (Reachable devices w ∧ w.fetcher = .gathering [0, 1] ∧
      ∀ i ∈ [0, 1], 3 ≤ labels.countP (·.task? = some i)) ∧
    (∀ i ∈ [0, 1], ∃ b, (run devices w labels).tasks[i]? = some (.done b)) ∧
      settled (run devices w labels).tasks [0, 1] = true :=
  ⟨⟨Reachable.initial.run _, by decide, by decide⟩,
    batch_settles (Reachable.initial.run _) (by decide) _ (by decide)⟩

/-- Manager resumptions left before its `asyncio.sleep(30)`. -/
def Manager.turns : Manager → Nat
  | .initial todo => 2 * todo.length + 1
  | .initialConnect _ todo => 2 * todo.length + 2
  | .sleeping => 0
  | .cycle todo => 4 * todo.length + 1
  | .probe _ _ todo => 4 * todo.length + 4
  | .disconnect _ _ todo => 4 * todo.length + 3
  | .connect _ todo => 4 * todo.length + 2

theorem Manager.eq_sleeping_of_turns_eq_zero {m : Manager} (h : m.turns = 0) :
    m = .sleeping := by
  cases m <;> simp_all [Manager.turns]

theorem reconnect_turns (n : Net) (d : Device) (todo : List Device) :
    (reconnect n d todo).2.turns ≤ 4 * todo.length + 3 := by
  unfold reconnect
  split <;> simp [Manager.turns]

theorem managerStep_turns_lt {m : Manager} (hm : m ≠ .sleeping) (r : Awaited) (n : Net) :
    (managerStep devices r n m).2.turns < m.turns := by
  cases m with
  | initial todo =>
    cases todo with
    | nil => simp [managerStep, Manager.turns]
    | cons d todo => simp [managerStep, Manager.turns]; omega
  | initialConnect c todo => cases r <;> simp [managerStep, Manager.turns]
  | sleeping => exact absurd rfl hm
  | cycle todo =>
    cases todo with
    | nil => simp [managerStep, Manager.turns]
    | cons d todo =>
      simp only [managerStep]
      split
      · exact (reconnect_turns n d todo).trans_lt (by simp [Manager.turns]; omega)
      · simp [Manager.turns]; omega
  | probe d c todo =>
    simp only [managerStep]
    split
    · simp [Manager.turns]
    · exact (reconnect_turns n d todo).trans_lt (by simp [Manager.turns])
  | disconnect d old todo => simp [managerStep, Manager.turns]
  | connect c todo => cases r <;> simp [managerStep, Manager.turns]

theorem turns_managerStep_le {m : Manager} (h : m.turns ≤ 4 * devices.length + 1) (r : Awaited)
    (n : Net) : (managerStep devices r n m).2.turns ≤ 4 * devices.length + 1 := by
  by_cases hm : m = .sleeping
  · subst hm; simp [managerStep, Manager.turns]
  · exact (managerStep_turns_lt hm r n).le.trans h

theorem manager_turns_reachable (h : Reachable devices w) :
    w.manager.turns ≤ 4 * devices.length + 1 := by
  induction h with
  | initial => simp [initial, Manager.turns]; omega
  | step l _ ih =>
    cases l with
    | manager r => exact turns_managerStep_le ih r _
    | fetcher => rwa [(@step_registry_of_not_manager devices _ .fetcher nofun).2]
    | task i r => rwa [(@step_registry_of_not_manager devices _ (.task i r) nofun).2]

theorem sleeping_within_turns (labels : List Label) :
    ∀ w : World, w.manager.turns ≤ (managerAwaits labels).length →
      ∃ pre, pre <+: labels ∧ (run devices w pre).manager = .sleeping := by
  induction labels with
  | nil =>
    intro w hw
    refine ⟨[], List.prefix_refl _, Manager.eq_sleeping_of_turns_eq_zero ?_⟩
    simpa [managerAwaits] using hw
  | cons l labels ih =>
    intro w hw
    by_cases hs : w.manager = .sleeping
    · exact ⟨[], List.nil_prefix, hs⟩
    have hnext :
        ∃ pre, pre <+: labels ∧ (run devices (step devices w l) pre).manager = .sleeping := by
      apply ih
      cases l with
      | manager r =>
        have := @managerStep_turns_lt devices _ hs r w.net
        simp only [managerAwaits, List.length_cons] at hw
        simp only [step]; omega
      | fetcher => rwa [(@step_registry_of_not_manager devices _ .fetcher nofun).2]
      | task i r => rwa [(@step_registry_of_not_manager devices _ (.task i r) nofun).2]
    obtain ⟨pre, hpre, hsl⟩ := hnext
    exact ⟨l :: pre, List.prefix_cons_inj l |>.2 hpre, hsl⟩

/-- Within `4 * len(devices) + 1` of its own resumptions the manager is back at its sleep:
no loop of it runs forever. -/
theorem manager_loop_ends (h : Reachable devices w) (labels : List Label)
    (hl : 4 * devices.length + 1 ≤ (managerAwaits labels).length) :
    ∃ pre, pre <+: labels ∧ (run devices w pre).manager = .sleeping :=
  sleeping_within_turns labels w ((manager_turns_reachable h).trans hl)

theorem manager_loop_ends_dead_session :
    let devices : List Device := [⟨"h", 830, "u", "p"⟩]
    let w := run devices (initial devices)
      [.manager .raised, .manager (.returned []), .manager .raised, .manager .raised]
    let labels : List Label := [.fetcher, .manager .raised, .task 0 .raised, .manager .raised,
      .manager .raised, .manager (.returned []), .manager .raised]
    (Reachable devices w ∧ 4 * devices.length + 1 ≤ (managerAwaits labels).length) ∧
      ∃ pre, pre <+: labels ∧ (run devices w pre).manager = .sleeping :=
  ⟨⟨Reachable.initial.run _, by decide⟩,
    manager_loop_ends (Reachable.initial.run _) _ (by decide)⟩

end PyNetX.GetMultiple
