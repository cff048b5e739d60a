import PyNetX.GetMultiple.HealthCheck

/-! `async_example_get_multiple.py`: manager and fetch thread, interleaved at awaits. -/
namespace PyNetX.GetMultiple

/-- Where `connection_manager_coroutine` is; `todo` are the devices its current `for`
loop has still to visit. -/
inductive Manager
  | initial (todo : List Device)
  | initialConnect (client : Client) (todo : List Device)
  | sleeping
  | cycle (todo : List Device)
  | probe (device : Device) (client : Client) (todo : List Device)
  | disconnect (device : Device) (old : Client) (todo : List Device)
  | connect (client : Client) (todo : List Device)
  deriving DecidableEq, Repr

/-- Where one `fetch_data(key, filter_xml)` task is. -/
inductive Fetch
  | start (key : String × Nat)
  | get (key : String × Nat) (client : Client)
  | disconnect (key : String × Nat) (client : Client)
  | done (raised : Bool)
  deriving DecidableEq, Repr

/-- Where `main_fetch_coroutine` is: asleep, or gathering the tasks of its batch. -/
inductive Fetcher
  | sleeping
  | gathering (batch : List Nat)
  deriving DecidableEq, Repr

structure World where
  net : Net
  manager : Manager
  fetcher : Fetcher
  tasks : List Fetch

/-- Which coroutine resumes, and what its await gave. -/
inductive Label
  | manager (r : Awaited)
  | fetcher
  | task (i : Nat) (r : Awaited)
  deriving DecidableEq, Repr

/-- `async_reconnect_device` up to its first await: disconnect the old client if there is
one, or else build the new client and connect it. -/
def reconnect (n : Net) (d : Device) (todo : List Device) : Net × Manager :=
  match n.connections d.key with
  | some old => (n.disconnect old, .disconnect d old todo)
  | none => (n.build d, .connect (newClient n.made d) todo)

/-- The connection manager resumes with `r` and runs to its next await. -/
def managerStep (devices : List Device) (r : Awaited) (n : Net) : Manager → Net × Manager
  | .initial [] => (n, .sleeping)
  | .initial (d :: todo) => (n.build d, .initialConnect (newClient n.made d) todo)
  | .initialConnect c todo =>
    match r with
    | .returned _ => (n.install c, .initial todo)
    | .raised => (n, .initial todo)
  | .sleeping => (n, .cycle devices)
  | .cycle [] => (n, .sleeping)
  | .cycle (d :: todo) =>
    match n.connections d.key with
    | none => reconnect n d todo
    | some c => (n, .probe d c todo)
  | .probe d _ todo =>
    if asyncIsConnectionAlive r then (n, .cycle todo) else reconnect n d todo
  | .disconnect d _ todo => (n.build d, .connect (newClient n.made d) todo)
  | .connect c todo =>
    match r with
    | .returned _ => (n.install c, .cycle todo)
    | .raised => (n, .cycle todo)

/-- A `fetch_data` task resumes with `r`; its `finally` clause disconnects the client it took,
and a missing client makes both awaits raise. -/
def fetchData (r : Awaited) (n : Net) : Fetch → Net × Fetch
  | .start key =>
    match n.connections key with
    | some c => (n, .get key c)
    | none => (n, .done true)
  | .get key c => (n.disconnect c, .disconnect key c)
  | .disconnect _ _ =>
    match r with
    | .returned _ => (n, .done false)
    | .raised => (n, .done true)
  | .done b => (n, .done b)

/-- `asyncio.gather` returns once every task of the batch is done, or raises as soon as
one of them has raised. -/
def settled (tasks : List Fetch) (batch : List Nat) : Bool :=
  batch.all (fun i => match tasks[i]? with | some (.done _) => true | _ => false) ||
    batch.any (fun i => tasks[i]? == some (.done true))

/-- One resumption of a coroutine; a label that cannot resume changes nothing. -/
def step (devices : List Device) (w : World) : Label → World
  | .manager r =>
    { w with net := (managerStep devices r w.net w.manager).1,
             manager := (managerStep devices r w.net w.manager).2 }
  | .fetcher =>
    match w.fetcher with
    | .sleeping =>
      { w with tasks := w.tasks ++ devices.map (fun d => .start d.key),
               fetcher := .gathering ((List.range devices.length).map (w.tasks.length + ·)) }
    | .gathering batch => if settled w.tasks batch then { w with fetcher := .sleeping } else w
  | .task i r =>
    match w.tasks[i]? with
    | none => w
    | some t => { w with net := (fetchData r w.net t).1, tasks := w.tasks.set i (fetchData r w.net t).2 }

def initial (devices : List Device) : World :=
  ⟨⟨fun _ => none, [], fun _ => .unconnected⟩, .initial devices, .sleeping, []⟩

def run (devices : List Device) (w : World) : List Label → World
  | [] => w
  | l :: rest => run devices (step devices w l) rest

inductive Reachable (devices : List Device) : World → Prop
  | initial : Reachable devices (initial devices)
  | step {w : World} (l : Label) : Reachable devices w → Reachable devices (step devices w l)

theorem run_append (devices : List Device) (w : World) (l₁ l₂ : List Label) :
    run devices w (l₁ ++ l₂) = run devices (run devices w l₁) l₂ := by
  induction l₁ generalizing w with
  | nil => rfl
  | cons l l₁ ih => exact ih _

theorem Reachable.run {devices : List Device} {w : World} (h : Reachable devices w) :
    ∀ labels, Reachable devices (run devices w labels)
  | [] => h
  | l :: rest => (Reachable.step l h).run rest

/-- The manager is between two devices of a loop, or asleep. -/
def Manager.betweenDevices : Manager → Bool
  | .initial _ | .sleeping | .cycle _ => true
  | _ => false

def Fetch.finished : Fetch → Bool
  | .done _ => true
  | _ => false

/-- Neither coroutine is inside one device's step. -/
def Quiescent (w : World) : Prop :=
  w.manager.betweenDevices = true ∧ ∀ t ∈ w.tasks, t.finished = true

instance : DecidablePred Quiescent := fun _ => inferInstanceAs (Decidable (_ ∧ _))

/-- Every live session is a value of `connections`. -/
def LiveRegistered (n : Net) : Prop :=
  ∀ c, n.session c = .live → ∃ k, n.connections k = some c

/-- Every value of `connections` is a client whose `connect_async` succeeded. -/
def RegisteredConnected (n : Net) : Prop :=
  ∀ k c, n.connections k = some c → n.session c ≠ .unconnected

/-- The key the manager's next store writes holds no live session: in the initial phase
the keys still to visit are empty, and a reconnect has disconnected the old client. -/
def SlotFree (devices : List Device) (n : Net) : Manager → Prop
  | .initial todo => todo <:+ devices ∧ ∀ d ∈ todo, n.connections d.key = none
  | .initialConnect c todo =>
    c.device :: todo <:+ devices ∧ ∀ d ∈ c.device :: todo, n.connections d.key = none
  | .disconnect d _ _ => ∀ o, n.connections d.key = some o → n.session o ≠ .live
  | .connect c _ => ∀ o, n.connections c.device.key = some o → n.session o ≠ .live
  | _ => True

structure Inv (devices : List Device) (w : World) : Prop where
  live : LiveRegistered w.net
  registered : RegisteredConnected w.net
  slot : SlotFree devices w.net w.manager

variable {devices : List Device} {n : Net} {c : Client}

theorem liveRegistered_disconnect (h : LiveRegistered n) (c : Client) :
    LiveRegistered (n.disconnect c) := by
  intro o ho
  by_cases hoc : o = c
  · subst hoc
    simp [Net.disconnect] at ho
  · exact h o (by simpa [Net.disconnect, hoc] using ho)

theorem registeredConnected_disconnect (h : RegisteredConnected n) (c : Client) :
    RegisteredConnected (n.disconnect c) :=
  fun k o hk => Net.disconnect_session_ne_unconnected (h k o hk) c

theorem slotFree_disconnect {m : Manager} (h : SlotFree devices n m) (c : Client) :
    SlotFree devices (n.disconnect c) m := by
  have closes : ∀ o, n.session o ≠ .live → (n.disconnect c).session o ≠ .live := by
    intro o ho
    by_cases hoc : o = c <;> simp [Net.disconnect, hoc, ho]
  cases m <;> simp only [SlotFree] at h ⊢
  all_goals first | exact h | exact fun o hk => closes o (h o hk)

theorem liveRegistered_install (h : LiveRegistered n)
    (hs : ∀ o, n.connections c.device.key = some o → n.session o ≠ .live) :
    LiveRegistered (n.install c) := by
  intro o ho
  by_cases hoc : o = c
  · exact ⟨c.device.key, by simp [hoc]⟩
  · have ho' : n.session o = .live := by simpa [Net.install, hoc] using ho
    obtain ⟨k, hk⟩ := h o ho'
    have hkc : k ≠ c.device.key := by
      rintro rfl
      exact hs o hk ho'
    exact ⟨k, by simp [hkc, hk]⟩

theorem registeredConnected_install (h : RegisteredConnected n) (c : Client) :
    RegisteredConnected (n.install c) := by
  intro k o hk
  by_cases hkc : k = c.device.key
  · subst hkc
    simp only [Net.install_connections, Function.update_same, Option.some.injEq] at hk
    simp [Net.install, ← hk]
  · have hk' : n.connections k = some o := by simpa [hkc] using hk
    by_cases hoc : o = c
    · simp [Net.install, hoc]
    · simpa [Net.install, hoc] using h k o hk'

/-- What the manager's step keeps: the two registry facts and a free slot. -/
def ManagerInv (devices : List Device) (n : Net) (m : Manager) : Prop :=
  LiveRegistered n ∧ RegisteredConnected n ∧ SlotFree devices n m

theorem reconnect_inv {d : Device} (h1 : LiveRegistered n) (h2 : RegisteredConnected n)
    (todo : List Device) :
    ManagerInv devices (reconnect n d todo).1 (reconnect n d todo).2 := by
  unfold reconnect
  split
  next old hold =>
    refine ⟨liveRegistered_disconnect h1 old, registeredConnected_disconnect h2 old, ?_⟩
    intro o ho
    simp only [Net.disconnect_connections, hold, Option.some.injEq] at ho
    simp [Net.disconnect, ← ho]
  next hnone => exact ⟨h1, h2, by simp [SlotFree, hnone]⟩

theorem managerStep_inv (hn : (devices.map Device.key).Nodup) (r : Awaited) {m : Manager}
    (h : ManagerInv devices n m) :
    ManagerInv devices (managerStep devices r n m).1 (managerStep devices r n m).2 := by
  obtain ⟨h1, h2, h3⟩ := h
  cases m with
  | initial todo =>
    cases todo with
    | nil => exact ⟨h1, h2, trivial⟩
    | cons d todo => exact ⟨h1, h2, h3⟩
  | initialConnect c todo =>
    obtain ⟨hsuf, hnone⟩ := h3
    have hkeys : c.device.key ∉ todo.map Device.key :=
      (List.nodup_cons.1 ((hn.sublist (hsuf.sublist.map _)))).1
    have hrest : SlotFree devices (n.install c) (.initial todo) := by
      refine ⟨(List.suffix_cons _ _).trans hsuf, fun d hd => ?_⟩
      have hne : d.key ≠ c.device.key := fun he => hkeys (he ▸ List.mem_map_of_mem _ hd)
      simp [hne, hnone d (List.mem_cons_of_mem _ hd)]
    cases r with
    | returned _ =>
      exact ⟨liveRegistered_install h1 (by simp [hnone]), registeredConnected_install h2 c,
        hrest⟩
    | raised => exact ⟨h1, h2, (List.suffix_cons _ _).trans hsuf,
        fun d hd => hnone d (List.mem_cons_of_mem _ hd)⟩
  | sleeping => exact ⟨h1, h2, trivial⟩
  | cycle todo =>
    cases todo with
    | nil => exact ⟨h1, h2, trivial⟩
    | cons d todo =>
      simp only [managerStep]
      split
      · exact reconnect_inv h1 h2 todo
      · exact ⟨h1, h2, trivial⟩
  | probe d c todo =>
    simp only [managerStep]
    split
    · exact ⟨h1, h2, trivial⟩
    · exact reconnect_inv h1 h2 todo
  | disconnect d old todo => exact ⟨h1, h2, h3⟩
  | connect c todo =>
    cases r with
    | returned _ => exact ⟨liveRegistered_install h1 h3, registeredConnected_install h2 c, trivial⟩
    | raised => exact ⟨h1, h2, trivial⟩

theorem fetchData_net (r : Awaited) (n : Net) (t : Fetch) :
    (fetchData r n t).1 = n ∨ ∃ c, (fetchData r n t).1 = n.disconnect c := by
  unfold fetchData
  split
  · split <;> simp
  · exact .inr ⟨_, rfl⟩
  · split <;> simp
  · simp

theorem managerInv_fetchData {m : Manager} (h : ManagerInv devices n m) (r : Awaited)
    (t : Fetch) : ManagerInv devices (fetchData r n t).1 m := by
  rcases fetchData_net r n t with he | ⟨c, he⟩ <;> rw [he]
  · exact h
  · exact ⟨liveRegistered_disconnect h.1 c, registeredConnected_disconnect h.2.1 c,
      slotFree_disconnect h.2.2 c⟩

theorem inv_initial : Inv devices (initial devices) :=
  ⟨fun _ h => by simp [initial] at h, fun _ _ h => by simp [initial] at h,
    List.suffix_refl _, fun _ _ => rfl⟩

theorem inv_step (hn : (devices.map Device.key).Nodup) {w : World} (h : Inv devices w)
    (l : Label) : Inv devices (step devices w l) := by
  have hm : ManagerInv devices w.net w.manager := ⟨h.live, h.registered, h.slot⟩
  cases l with
  | manager r =>
    obtain ⟨h1, h2, h3⟩ := managerStep_inv hn r hm
    exact ⟨h1, h2, h3⟩
  | fetcher =>
    simp only [step]
    split
    · exact ⟨h.live, h.registered, h.slot⟩
    · split
      · exact ⟨h.live, h.registered, h.slot⟩
      · exact h
  | task i r =>
    simp only [step]
    split
    · exact h
    · next t _ =>
      obtain ⟨h1, h2, h3⟩ := managerInv_fetchData hm r t
      exact ⟨h1, h2, h3⟩

theorem inv_reachable (hn : (devices.map Device.key).Nodup) {w : World}
    (h : Reachable devices w) : Inv devices w := by
  induction h with
  | initial => exact inv_initial
  | step l _ ih => exact inv_step hn ih l

/-- The half of session ownership that holds: for a roster of distinct keys, every live
session is in `connections`, and every client there has connected. -/
theorem sessions_registered (hn : (devices.map Device.key).Nodup) {w : World}
    (h : Reachable devices w) :
    (∀ c, w.net.session c = .live → ∃ k, w.net.connections k = some c) ∧
      ∀ k c, w.net.connections k = some c → w.net.session c ≠ .unconnected :=
  ⟨(inv_reachable hn h).live, (inv_reachable hn h).registered⟩

end PyNetX.GetMultiple
