import PyNetX.GetMultiple.Threads

/-! The interleaved manager refines the per-device model `healthCheck`. -/
namespace PyNetX.GetMultiple

/-- The connection manager alone, resuming with each of `rs` in turn. -/
def managerRun (devices : List Device) (n : Net) (m : Manager) : List Awaited → Net × Manager
  | [] => (n, m)
  | r :: rs =>
    managerRun devices (managerStep devices r n m).1 (managerStep devices r n m).2 rs

/-- The manager's resumptions in an interleaved run, in order. -/
def managerAwaits : List Label → List Awaited
  | [] => []
  | .manager r :: rest => r :: managerAwaits rest
  | _ :: rest => managerAwaits rest

/-- What one device's check resumes with: first the step into the device (its value is
not read), then the awaits it reaches. -/
def checkAwaits (n : Net) (d : Device) (o : Outcomes) : List Awaited :=
  match n.connections d.key with
  | none => [.raised, o.connect]
  | some _ =>
    if asyncIsConnectionAlive o.probe then [.raised, o.probe]
    else [.raised, o.probe, o.disconnect, o.connect]

/-- What a whole pass resumes with. -/
def cycleAwaits (n : Net) : List (Device × Outcomes) → List Awaited
  | [] => []
  | (d, o) :: rest => checkAwaits n d o ++ cycleAwaits (checkDevice n d o) rest

/-- What the manager's decisions read: `connections` and the clients built. -/
def Net.registry (n : Net) : (String × Nat → Option Client) × List Client :=
  (n.connections, n.made)

/-- What the initial loop resumes with: for each device, the step into it (its value is
not read) and what its `connect_async` gave. -/
def initialAwaits : List (Device × Awaited) → List Awaited
  | [] => []
  | (_, r) :: rest => .raised :: r :: initialAwaits rest

/-- What the periodic loop resumes with over `passes`: before each pass, leaving the loop
before it and the `asyncio.sleep(30)` (their values are not read), then the pass. -/
def passesAwaits (n : Net) : List (List (Device × Outcomes)) → List Awaited
  | [] => []
  | p :: ps => .raised :: .raised :: (cycleAwaits n p ++ passesAwaits (healthCheck n p) ps)

/-- The connection manager's effect over its life: the initial connect of every device,
then one health check per pass. -/
def managerLife (n : Net) (outs : List (Device × Awaited))
    (passes : List (List (Device × Outcomes))) : Net :=
  passes.foldl healthCheck (initialConnect n outs)

variable {devices : List Device}

theorem managerRun_append (n : Net) (m : Manager) (rs rs' : List Awaited) :
    managerRun devices n m (rs ++ rs') =
      managerRun devices (managerRun devices n m rs).1 (managerRun devices n m rs).2 rs' := by
  induction rs generalizing n m with
  | nil => rfl
  | cons r rs ih => exact ih _ _

theorem managerRun_checkAwaits (n : Net) (d : Device) (o : Outcomes) (todo : List Device) :
    managerRun devices n (.cycle (d :: todo)) (checkAwaits n d o) =
      (checkDevice n d o, .cycle todo) := by
  unfold checkAwaits checkDevice asyncReconnectDevice
  rcases hc : n.connections d.key with _ | c
  · cases o.connect <;> simp [managerRun, managerStep, reconnect, asyncConnectDevice, hc]
  · by_cases ha : asyncIsConnectionAlive o.probe
    · simp [managerRun, managerStep, hc, ha]
    · cases o.connect <;> simp [managerRun, managerStep, reconnect, asyncConnectDevice, hc, ha]

theorem managerRun_cycleAwaits (pairs : List (Device × Outcomes)) (n : Net)
    (todo : List Device) :
    managerRun devices n (.cycle (pairs.map Prod.fst ++ todo)) (cycleAwaits n pairs) =
      (healthCheck n pairs, .cycle todo) := by
  induction pairs generalizing n with
  | nil => rfl
  | cons p pairs ih =>
    simp only [List.map_cons, List.cons_append, cycleAwaits, managerRun_append,
      managerRun_checkAwaits, healthCheck]
    exact ih _

theorem managerRun_initialAwaits (outs : List (Device × Awaited)) (n : Net)
    (todo : List Device) :
    managerRun devices n (.initial (outs.map Prod.fst ++ todo)) (initialAwaits outs) =
      (initialConnect n outs, .initial todo) := by
  induction outs generalizing n with
  | nil => rfl
  | cons p outs ih =>
    obtain ⟨d, r⟩ := p
    cases r <;> exact ih _

theorem managerRun_passesAwaits (passes : List (List (Device × Outcomes)))
    (hp : ∀ p ∈ passes, p.map Prod.fst = devices) (n : Net) {m : Manager}
    (hm : m = .initial [] ∨ m = .cycle []) :
    managerRun devices n m (passesAwaits n passes) =
      (passes.foldl healthCheck n, if passes.isEmpty then m else .cycle []) := by
  induction passes generalizing n m with
  | nil => simp [passesAwaits, managerRun]
  | cons p ps ih =>
    simp only [List.forall_mem_cons] at hp
    have hsleep : ∀ rs, managerRun devices n m (.raised :: .raised :: rs) =
        managerRun devices n (.cycle (p.map Prod.fst ++ [])) rs := by
      rw [List.append_nil, hp.1]
      rcases hm with rfl | rfl <;> intro rs <;> rfl
    rw [passesAwaits, hsleep, managerRun_append, managerRun_cycleAwaits,
      ih hp.2 _ (.inr rfl)]
    simp

theorem registry_reconnect {n n' : Net} (hc : n.connections = n'.connections)
    (hm : n.made = n'.made) (d : Device) (todo : List Device) :
    (reconnect n d todo).1.registry = (reconnect n' d todo).1.registry ∧
      (reconnect n d todo).2 = (reconnect n' d todo).2 := by
  unfold reconnect
  rw [hc]
  cases n'.connections d.key <;> simp [Net.registry, hc, hm]

theorem registry_managerStep {n n' : Net} (h : n.registry = n'.registry) (r : Awaited)
    (m : Manager) :
    (managerStep devices r n m).1.registry = (managerStep devices r n' m).1.registry ∧
      (managerStep devices r n m).2 = (managerStep devices r n' m).2 := by
  simp only [Net.registry, Prod.mk.injEq] at h
  obtain ⟨hc, hm⟩ := h
  cases m with
  | initial todo => cases todo <;> simp [managerStep, Net.registry, hm, hc]
  | initialConnect c todo => cases r <;> simp [managerStep, Net.registry, hm, hc]
  | sleeping => simp [managerStep, Net.registry, hm, hc]
  | cycle todo =>
    cases todo with
    | nil => simp [managerStep, Net.registry, hm, hc]
    | cons d todo =>
      simp only [managerStep, hc]
      split
      · exact registry_reconnect hc hm d todo
      · simp [Net.registry, hm, hc]
  | probe d c todo =>
    simp only [managerStep]
    split
    · simp [Net.registry, hm, hc]
    · exact registry_reconnect hc hm d todo
  | disconnect d old todo => simp [managerStep, Net.registry, hm, hc]
  | connect c todo => cases r <;> simp [managerStep, Net.registry, hm, hc]

theorem registry_fetchData (r : Awaited) (n : Net) (t : Fetch) :
    (fetchData r n t).1.registry = n.registry := by
  rcases fetchData_net r n t with he | ⟨c, he⟩ <;> rw [he]; rfl

theorem step_registry_of_not_manager {w : World} {l : Label} (hl : ∀ r, l ≠ .manager r) :
    (step devices w l).net.registry = w.net.registry ∧ (step devices w l).manager = w.manager := by
  cases l with
  | manager r => exact absurd rfl (hl r)
  | fetcher =>
    simp only [step]
    split
    · exact ⟨rfl, rfl⟩
    · split <;> exact ⟨rfl, rfl⟩
  | task i r =>
    simp only [step]
    split
    · exact ⟨rfl, rfl⟩
    · exact ⟨registry_fetchData _ _ _, rfl⟩

/-- In any interleaved run, `connections`, the clients built and the manager's place are
those of the manager running alone on its own resumptions. -/
theorem run_registry (labels : List Label) (w : World) (n : Net)
    (h : w.net.registry = n.registry) :
    (run devices w labels).net.registry =
        (managerRun devices n w.manager (managerAwaits labels)).1.registry ∧
      (run devices w labels).manager = (managerRun devices n w.manager (managerAwaits labels)).2 := by
  induction labels generalizing w n with
  | nil => exact ⟨h, rfl⟩
  | cons l labels ih =>
    cases l with
    | manager r =>
      obtain ⟨hr, hm⟩ := registry_managerStep h r w.manager
      have := ih (step devices w (.manager r)) (managerStep devices r n w.manager).1 hr
      rw [show (step devices w (.manager r)).manager = _ from hm] at this
      exact this
    | fetcher =>
      obtain ⟨hr, hm⟩ := @step_registry_of_not_manager devices w .fetcher
        (fun _ h => Label.noConfusion h)
      have := ih _ n (hr.trans h)
      rw [hm] at this
      exact this
    | task i r =>
      obtain ⟨hr, hm⟩ := @step_registry_of_not_manager devices w (.task i r)
        (fun _ h => Label.noConfusion h)
      have := ih _ n (hr.trans h)
      rw [hm] at this
      exact this

/-- Whatever the fetch side does, a pass of the periodic loop computes `healthCheck`. -/
theorem cycle_refines_healthCheck (w : World) (pairs : List (Device × Outcomes))
    (hw : w.manager = .cycle (pairs.map Prod.fst)) (labels : List Label)
    (hl : managerAwaits labels = cycleAwaits w.net pairs) :
    (run devices w labels).net.registry = (healthCheck w.net pairs).registry ∧
      (run devices w labels).manager = .cycle [] := by
  have h := @run_registry devices labels w w.net rfl
  have hc := @managerRun_cycleAwaits devices pairs w.net []
  rw [List.append_nil] at hc
  rw [hl, hw, hc] at h
  exact h

theorem cycle_refines_healthCheck_one_device :
    let d : Device := ⟨"h", 830, "u", "p"⟩
    let w := run [d] (initial [d])
      [.manager .raised, .manager (.returned []), .manager .raised, .manager .raised]
    let pairs : List (Device × Outcomes) := [(d, ⟨.returned "<rpc-reply/>".toList, .raised, .raised⟩)]
    let labels := [.manager .raised, .fetcher, .task 0 .raised,
      .manager (.returned "<rpc-reply/>".toList)]
    (w.manager = .cycle (pairs.map Prod.fst) ∧ managerAwaits labels = cycleAwaits w.net pairs) ∧
      (run [d] w labels).net.registry = (healthCheck w.net pairs).registry ∧
        (run [d] w labels).manager = .cycle [] :=
  ⟨⟨by decide, by decide⟩, cycle_refines_healthCheck _ _ (by decide) _ (by decide)⟩

/-- Whatever the fetch side does, the manager's life computes `initialConnect`, then one
`healthCheck` per pass. -/
theorem manager_refines_life (outs : List (Device × Awaited))
    (ho : outs.map Prod.fst = devices) (passes : List (List (Device × Outcomes)))
    (hp : ∀ p ∈ passes, p.map Prod.fst = devices) (labels : List Label)
    (hl : managerAwaits labels = initialAwaits outs ++
      passesAwaits (initialConnect (initial devices).net outs) passes) :
    (run devices (initial devices) labels).net.registry =
      (managerLife (initial devices).net outs passes).registry := by
  have h := (@run_registry devices labels (initial devices) (initial devices).net rfl).1
  have hi := @managerRun_initialAwaits devices outs (initial devices).net []
  rw [List.append_nil, ho] at hi
  rw [h, hl, managerRun_append, show (initial devices).manager = .initial devices from rfl, hi,
    managerRun_passesAwaits passes hp _ (.inl rfl)]
  rfl

theorem manager_refines_life_one_device :
    let d : Device := ⟨"h", 830, "u", "p"⟩
    let outs : List (Device × Awaited) := [(d, .returned [])]
    let passes : List (List (Device × Outcomes)) :=
      [[(d, ⟨.returned "<rpc-reply/>".toList, .raised, .raised⟩)]]
    let labels := [.manager .raised, .manager (.returned []), .fetcher, .task 0 .raised,
      .manager .raised, .manager .raised, .manager .raised,
      .manager (.returned "<rpc-reply/>".toList)]
    (outs.map Prod.fst = [d] ∧ (∀ p ∈ passes, p.map Prod.fst = [d]) ∧
      managerAwaits labels = initialAwaits outs ++
        passesAwaits (initialConnect (initial [d]).net outs) passes) ∧
    (run [d] (initial [d]) labels).net.registry =
      (managerLife (initial [d]).net outs passes).registry :=
  ⟨⟨rfl, by decide, by decide⟩, manager_refines_life _ (by rfl) _ (by decide) _ (by decide)⟩

end PyNetX.GetMultiple
