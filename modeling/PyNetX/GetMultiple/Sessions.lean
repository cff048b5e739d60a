import PyNetX.GetMultiple.Keys

/-! Fresh clients, closed sessions for good, and the fetch that closes the registry's. -/
namespace PyNetX.GetMultiple

/-- The client the manager has built and is connecting. -/
def Manager.pending : Manager → Option Client
  | .initialConnect c _ | .connect c _ => some c
  | _ => none

/-- Client objects are built once each, connected only fresh, and the clients the fetch
tasks hold have connected. -/
structure Fresh (w : World) : Prop where
  registered : RegisteredConnected w.net
  built : ∀ c, w.net.session c ≠ .unconnected → c ∈ w.net.made
  serials : ∀ c ∈ w.net.made, c.serial < w.net.made.countP (·.device = c.device)
  pending : ∀ c, w.manager.pending = some c → c ∈ w.net.made ∧ w.net.session c = .unconnected
  held : ∀ key c, Fetch.get key c ∈ w.tasks → w.net.session c ≠ .unconnected
  closed : ∀ key c, Fetch.disconnect key c ∈ w.tasks → w.net.session c = .closed

variable {devices : List Device} {w : World} {n : Net} {c : Client}

theorem serials_build (h : ∀ c ∈ n.made, c.serial < n.made.countP (·.device = c.device))
    (d : Device) : ∀ c ∈ (n.build d).made, c.serial < (n.build d).made.countP (·.device = c.device) :=
  serials_append_newClient h d

/-- Everything a manager step can do to the net: nothing, build the client it then
connects, store its pending client, or disconnect a stored one. -/
theorem managerStep_cases (r : Awaited) (n : Net) (m : Manager) :
    ((managerStep devices r n m).1 = n ∧ (managerStep devices r n m).2.pending = none) ∨
    (∃ d, (managerStep devices r n m).1 = n.build d ∧
      (managerStep devices r n m).2.pending = some (newClient n.made d)) ∨
    (∃ c, m.pending = some c ∧ (managerStep devices r n m).1 = n.install c ∧
      (managerStep devices r n m).2.pending = none) ∨
    (∃ k old, n.connections k = some old ∧ (managerStep devices r n m).1 = n.disconnect old ∧
      (managerStep devices r n m).2.pending = none) := by
  have hre : ∀ d todo, ((reconnect n d todo).1 = n.build d ∧
      (reconnect n d todo).2.pending = some (newClient n.made d)) ∨
      ∃ k old, n.connections k = some old ∧ (reconnect n d todo).1 = n.disconnect old ∧
        (reconnect n d todo).2.pending = none := by
    intro d todo
    unfold reconnect
    split
    next old h => exact .inr ⟨_, old, h, rfl, rfl⟩
    next => exact .inl ⟨rfl, rfl⟩
  cases m with
  | initial todo =>
    cases todo with
    | nil => exact .inl ⟨rfl, rfl⟩
    | cons d todo => exact .inr (.inl ⟨d, rfl, rfl⟩)
  | initialConnect c todo =>
    cases r
    · exact .inr (.inr (.inl ⟨c, rfl, rfl, rfl⟩))
    · exact .inl ⟨rfl, rfl⟩
  | sleeping => exact .inl ⟨rfl, rfl⟩
  | cycle todo =>
    cases todo with
    | nil => exact .inl ⟨rfl, rfl⟩
    | cons d todo =>
      simp only [managerStep]
      split
      · rcases hre d todo with h | h
        · exact .inr (.inl ⟨d, h⟩)
        · exact .inr (.inr (.inr h))
      · exact .inl ⟨rfl, rfl⟩
  | probe d c todo =>
    simp only [managerStep]
    split
    · exact .inl ⟨rfl, rfl⟩
    · rcases hre d todo with h | h
      · exact .inr (.inl ⟨d, h⟩)
      · exact .inr (.inr (.inr h))
  | disconnect d old todo => exact .inr (.inl ⟨d, rfl, rfl⟩)
  | connect c todo =>
    cases r
    · exact .inr (.inr (.inl ⟨c, rfl, rfl, rfl⟩))
    · exact .inl ⟨rfl, rfl⟩

theorem built_disconnect (hb : ∀ c, n.session c ≠ .unconnected → c ∈ n.made) {old : Client}
    (hold : n.session old ≠ .unconnected) :
    ∀ c, (n.disconnect old).session c ≠ .unconnected → c ∈ (n.disconnect old).made := by
  intro c hc
  by_cases h : c = old
  · exact h ▸ hb old hold
  · exact hb c (by rwa [Net.disconnect_session_of_ne n h] at hc)

theorem fresh_manager (hf : Fresh w) (r : Awaited) : Fresh (step devices w (.manager r)) := by
  simp only [step]
  rcases @managerStep_cases devices r w.net w.manager with
    ⟨hn, hp⟩ | ⟨d, hn, hp⟩ | ⟨c, hc, hn, hp⟩ | ⟨k, old, hk, hn, hp⟩ <;> rw [hn] <;>
    refine ⟨?_, ?_, ?_, ?_, ?_, ?_⟩ <;> simp only [hp, reduceCtorEq, false_implies, implies_true]
  -- the manager does not touch the net
  · exact hf.registered
  · exact hf.built
  · exact hf.serials
  · exact hf.held
  · exact hf.closed
  -- it builds the client it is about to connect
  · exact hf.registered
  · exact fun c hc => List.mem_append_left _ (hf.built c hc)
  · exact serials_build hf.serials d
  · rintro c ⟨⟩
    exact ⟨by simp, by_contra fun h => newClient_not_mem hf.serials d (hf.built _ h)⟩
  · exact hf.held
  · exact hf.closed
  -- it stores its pending client, which was fresh
  · exact registeredConnected_install hf.registered c
  · obtain ⟨hcm, -⟩ := hf.pending c hc
    intro o ho
    by_cases h : o = c
    · exact h ▸ hcm
    · exact hf.built o (by rwa [Net.install_session_of_ne _ h] at ho)
  · exact hf.serials
  · intro key o ho
    by_cases h : o = c
    · simp [h]
    · rw [Net.install_session_of_ne _ h]
      exact hf.held key o ho
  · intro key o ho
    have hcl := hf.closed key o ho
    have h : o ≠ c := by
      rintro rfl
      rw [(hf.pending o hc).2] at hcl
      cases hcl
    rw [Net.install_session_of_ne _ h, hcl]
  -- it disconnects a stored client
  · exact registeredConnected_disconnect hf.registered old
  · exact built_disconnect hf.built (hf.registered k old hk)
  · exact hf.serials
  · exact fun key o ho => Net.disconnect_session_ne_unconnected (hf.held key o ho) old
  · exact fun key o ho => Net.disconnect_session_closed (hf.closed key o ho) old

theorem fresh_set (hf : Fresh w) (i : Nat) (t : Fetch)
    (hget : ∀ key c, t = .get key c → w.net.session c ≠ .unconnected)
    (hdis : ∀ key c, t = .disconnect key c → w.net.session c = .closed) :
    Fresh { w with tasks := w.tasks.set i t } :=
  ⟨hf.registered, hf.built, hf.serials, hf.pending,
    fun key c h => (List.mem_or_eq_of_mem_set h).elim (hf.held key c) (hget key c ·.symm),
    fun key c h => (List.mem_or_eq_of_mem_set h).elim (hf.closed key c) (hdis key c ·.symm)⟩

theorem fresh_task (hf : Fresh w) (i : Nat) (r : Awaited) : Fresh (step devices w (.task i r)) := by
  simp only [step]
  split
  · exact hf
  next t ht =>
    cases t with
    | start key =>
      simp only [fetchData]
      split
      next c hc =>
        refine fresh_set hf i (.get key c) ?_ (fun _ _ e => Fetch.noConfusion e)
        rintro _ _ ⟨⟩
        exact hf.registered _ _ hc
      · exact fresh_set hf i (.done true) (fun _ _ e => Fetch.noConfusion e)
          (fun _ _ e => Fetch.noConfusion e)
    | get key c =>
      simp only [fetchData]
      have hc := hf.held key c (List.getElem?_mem ht)
      refine ⟨registeredConnected_disconnect hf.registered c, built_disconnect hf.built hc,
        hf.serials, fun p hp => ?_, fun k o ho => ?_, fun k o ho => ?_⟩
      · obtain ⟨hpm, hpu⟩ := hf.pending p hp
        have h : p ≠ c := by rintro rfl; exact hc hpu
        exact ⟨hpm, by rw [Net.disconnect_session_of_ne _ h, hpu]⟩
      · rcases List.mem_or_eq_of_mem_set ho with ho | ho
        · exact Net.disconnect_session_ne_unconnected (hf.held k o ho) c
        · cases ho
      · rcases List.mem_or_eq_of_mem_set ho with ho | ho
        · exact Net.disconnect_session_closed (hf.closed k o ho) c
        · cases ho
          simp
    | disconnect key c =>
      simp only [fetchData]
      split <;> exact fresh_set hf i (.done _) (fun _ _ e => Fetch.noConfusion e)
        (fun _ _ e => Fetch.noConfusion e)
    | done b =>
      exact fresh_set hf i (.done b) (fun _ _ e => Fetch.noConfusion e)
        (fun _ _ e => Fetch.noConfusion e)

theorem fresh_fetcher (hf : Fresh w) : Fresh (step devices w .fetcher) := by
  simp only [step]
  split
  · refine ⟨hf.registered, hf.built, hf.serials, hf.pending, fun k c h => ?_, fun k c h => ?_⟩
    all_goals
      rcases List.mem_append.1 h with h | h
      · first | exact hf.held k c h | exact hf.closed k c h
      · obtain ⟨_, -, h⟩ := List.mem_map.1 h
        cases h
  · split
    · exact ⟨hf.registered, hf.built, hf.serials, hf.pending, hf.held, hf.closed⟩
    · exact hf

theorem fresh_step (hf : Fresh w) : ∀ l, Fresh (step devices w l)
  | .manager r => fresh_manager hf r
  | .fetcher => fresh_fetcher hf
  | .task i r => fresh_task hf i r

theorem fresh_initial : Fresh (initial devices) :=
  ⟨fun _ _ h => by simp [initial] at h, fun _ h => absurd rfl h, by simp [initial],
    by simp [initial, Manager.pending], by simp [initial], by simp [initial]⟩

theorem fresh_reachable (h : Reachable devices w) : Fresh w := by
  induction h with
  | initial => exact fresh_initial
  | step l _ ih => exact fresh_step ih l

theorem session_closed_step (hf : Fresh w) (hc : w.net.session c = .closed) (l : Label) :
    (step devices w l).net.session c = .closed := by
  cases l with
  | manager r =>
    show (managerStep devices r w.net w.manager).1.session c = .closed
    rcases @managerStep_cases devices r w.net w.manager with
      ⟨hn, -⟩ | ⟨d, hn, -⟩ | ⟨p, hp, hn, -⟩ | ⟨k, old, -, hn, -⟩ <;> rw [hn]
    · exact hc
    · exact hc
    · have h : c ≠ p := by
        rintro rfl
        rw [(hf.pending c hp).2] at hc
        cases hc
      rw [Net.install_session_of_ne _ h, hc]
    · exact Net.disconnect_session_closed hc old
  | fetcher =>
    simp only [step]
    split
    · exact hc
    · split <;> exact hc
  | task i r =>
    simp only [step]
    split
    · exact hc
    next t _ =>
      rcases fetchData_net r w.net t with he | ⟨o, he⟩ <;> rw [he]
      · exact hc
      · exact Net.disconnect_session_closed hc o

/-- A session a fetch task disconnected stays closed for the rest of every run. -/
theorem fetch_disconnects_for_good (h : Reachable devices w) {key : String × Nat}
    (ht : Fetch.disconnect key c ∈ w.tasks) (labels : List Label) :
    (run devices w labels).net.session c = .closed := by
  have hf := fresh_reachable h
  have hc := hf.closed key c ht
  clear h ht
  induction labels generalizing w with
  | nil => exact hc
  | cons l labels ih => exact ih (fresh_step hf l) (session_closed_step hf hc l)

theorem fetch_disconnects_for_good_one_device :
    let devices : List Device := [⟨"h", 830, "u", "p"⟩]
    let w := run devices (initial devices)
      [.manager .raised, .manager (.returned []), .fetcher, .task 0 .raised, .task 0 .raised]
    Fetch.disconnect ("h", 830) ⟨⟨"h", 830, "u", "p"⟩, 0⟩ ∈ w.tasks ∧
      (run devices w [.manager .raised, .manager .raised, .manager .raised]).net.session
        ⟨⟨"h", 830, "u", "p"⟩, 0⟩ = .closed :=
  ⟨by decide,
    @fetch_disconnects_for_good _ _ _ (Reachable.initial.run _) ("h", 830) (by decide) _⟩

theorem step_task_eq {i : Nat} {t : Fetch} (ht : w.tasks[i]? = some t) (r : Awaited) :
    (step devices w (.task i r)).net = (fetchData r w.net t).1 ∧
      (step devices w (.task i r)).tasks[i]? = some (fetchData r w.net t).2 := by
  have hlt := (List.getElem?_eq_some_iff.1 ht).1
  simp [step, ht, hlt]

theorem run_task_done {i : Nat} {b : Bool} (rs : List Awaited) :
    ∀ w : World, w.tasks[i]? = some (.done b) →
      (run devices w (rs.map (.task i))).net = w.net ∧
        (run devices w (rs.map (.task i))).tasks[i]? = some (.done b) := by
  induction rs with
  | nil => exact fun w hd => ⟨rfl, hd⟩
  | cons r rs ih =>
    intro w hd
    obtain ⟨hn, ht⟩ := @step_task_eq devices w i _ hd r
    obtain ⟨hn', ht'⟩ := ih _ ht
    exact ⟨hn'.trans hn, ht'⟩

theorem fetch_of_registered {i : Nat} {key : String × Nat} (ht : w.tasks[i]? = some (.start key))
    (hk : w.net.connections key = some c) (r₁ r₂ r₃ : Awaited) :
    ∃ b, (run devices w [.task i r₁, .task i r₂, .task i r₃]).net = w.net.disconnect c ∧
      (run devices w [.task i r₁, .task i r₂, .task i r₃]).tasks[i]? = some (.done b) := by
  obtain ⟨hn₁, ht₁⟩ := @step_task_eq devices w i _ ht r₁
  simp only [fetchData, hk] at hn₁ ht₁
  obtain ⟨hn₂, ht₂⟩ := step_task_eq ht₁ r₂
  simp only [fetchData, hn₁] at hn₂ ht₂
  obtain ⟨hn₃, ht₃⟩ := step_task_eq ht₂ r₃
  simp only [run]
  cases r₃ <;> exact ⟨_, by simpa [fetchData, hn₂] using hn₃, by simpa [fetchData] using ht₃⟩

/-- A fetch that finds `c` in `connections` leaves it there closed, and no open session for
that device. -/
theorem fetch_closes_registry_session (hn : (devices.map Device.key).Nodup)
    (h : Reachable devices w) {i : Nat} {key : String × Nat}
    (ht : w.tasks[i]? = some (.start key)) (hk : w.net.connections key = some c)
    (rs : List Awaited) (hr : 3 ≤ rs.length) :
    (∃ b, (run devices w (rs.map (.task i))).tasks[i]? = some (.done b)) ∧
    (run devices w (rs.map (.task i))).net.connections key = some c ∧
    (run devices w (rs.map (.task i))).net.session c = .closed ∧
    ∀ o : Client, o.device.key = key →
      (run devices w (rs.map (.task i))).net.session o ≠ .live := by
  obtain ⟨r₁, r₂, r₃, rest, rfl⟩ : ∃ r₁ r₂ r₃ rest, rs = r₁ :: r₂ :: r₃ :: rest := by
    match rs, hr with
    | r₁ :: r₂ :: r₃ :: rest, _ => exact ⟨r₁, r₂, r₃, rest, rfl⟩
  obtain ⟨b, hnet, hdone⟩ := @fetch_of_registered devices w c i key ht hk r₁ r₂ r₃
  obtain ⟨hnet', hdone'⟩ := run_task_done rest _ hdone
  have hN := hnet'.trans hnet
  have hrun : run devices w ((r₁ :: r₂ :: r₃ :: rest).map (.task i)) =
      run devices (run devices w [.task i r₁, .task i r₂, .task i r₃]) (rest.map (.task i)) :=
    run_append devices w [_, _, _] _
  have hreach := h.run ((r₁ :: r₂ :: r₃ :: rest).map (.task i))
  rw [hrun] at hreach ⊢
  rw [hN]
  refine ⟨⟨b, hdone'⟩, by simpa using hk, by simp, fun o ho hlive => ?_⟩
  -- an open session is registered, under its own device's key, which holds the closed `c`
  obtain ⟨k, hok⟩ := (sessions_registered hn hreach).1 o (by rwa [hN])
  have hkey := ((keyed_reachable hreach).registry k o hok).2
  rw [hN, Net.disconnect_connections, ← hkey, ho, hk] at hok
  cases hok
  simp at hlive

theorem fetch_closes_registry_session_one_device :
    let devices : List Device := [⟨"h", 830, "u", "p"⟩]
    let w := run devices (initial devices)
      [.manager .raised, .manager (.returned []), .manager .raised, .fetcher]
    let c : Client := ⟨⟨"h", 830, "u", "p"⟩, 0⟩
    let rs : List Awaited := [.returned "<rpc-reply/>".toList, .returned [], .returned []]
    ((devices.map Device.key).Nodup ∧ Reachable devices w ∧
      w.tasks[0]? = some (.start ("h", 830)) ∧ w.net.connections ("h", 830) = some c ∧
      3 ≤ rs.length) ∧
    Quiescent (run devices w (rs.map (.task 0))) ∧
    (∃ b, (run devices w (rs.map (.task 0))).tasks[0]? = some (.done b)) ∧
    (run devices w (rs.map (.task 0))).net.connections ("h", 830) = some c ∧
    (run devices w (rs.map (.task 0))).net.session c = .closed ∧
    ∀ o : Client, o.device.key = ("h", 830) →
      (run devices w (rs.map (.task 0))).net.session o ≠ .live := by
  intro devices w c rs
  have hr : Reachable devices w := Reachable.initial.run _
  exact ⟨⟨by decide, hr, by decide, by decide, by decide⟩, by decide,
    fetch_closes_registry_session (by decide) hr (by decide) (by decide) rs (by decide)⟩

end PyNetX.GetMultiple
