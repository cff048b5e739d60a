import Mathlib.Data.List.Nodup
import PyNetX.Basic

/-! `async_example_get.py`: the `fetch_data` tasks of `main` under `asyncio.gather`. -/
namespace PyNetX.Get

/-- The clients a list comprehension of `NetconfClient(**device)` builds after `made`. -/
def buildClients (made : List Client) : List Device → List Client
  | [] => made
  | d :: ds => buildClients (made ++ [newClient made d]) ds

/-- `clients = [NetconfClient(**device) for device in devices]`. -/
def clients (devices : List Device) : List Client := buildClients [] devices

theorem length_buildClients (made : List Client) (ds : List Device) :
    (buildClients made ds).length = made.length + ds.length := by
  induction ds generalizing made with
  | nil => rfl
  | cons d ds ih => simp [buildClients, ih]; omega

theorem buildClients_nodup {made : List Client} (hn : made.Nodup)
    (hs : ∀ c ∈ made, c.serial < made.countP (·.device = c.device)) (ds : List Device) :
    (buildClients made ds).Nodup := by
  induction ds generalizing made with
  | nil => exact hn
  | cons d ds ih =>
    exact ih (List.nodup_append.2 ⟨hn, List.nodup_singleton _,
      List.disjoint_singleton.2 (newClient_not_mem hs d)⟩) (serials_append_newClient hs d)

theorem clients_nodup (devices : List Device) : (clients devices).Nodup :=
  buildClients_nodup List.nodup_nil (by simp) devices

@[simp] theorem length_clients (devices : List Device) :
    (clients devices).length = devices.length := by
  simp [clients, length_buildClients]

/-- Where a `fetch_data` task is suspended: at `connect_async`, at `get_async`, at the
`disconnect_async` of its `finally` clause, or returned. -/
inductive Pc
  | connecting
  | getting
  | disconnecting
  | done
  deriving DecidableEq, Repr

/-- The tasks `gather` runs, by roster index, and the session of every client. -/
structure State where
  tasks : Nat → Pc
  session : Client → Session

/-- `gather` has started every task: each waits on its `connect_async`, and no client
has a session yet. -/
def initial : State := ⟨fun _ => .connecting, fun _ => .unconnected⟩

/-- One resumption of task `i` on client `c`; every path reaches the finally clause, whose
`disconnect_async` closes the session. -/
def fetchData (c : Client) (i : Nat) (r : Awaited) (s : State) : State :=
  match s.tasks i, r with
  | .connecting, .returned _ =>
    ⟨Function.update s.tasks i .getting, Function.update s.session c .live⟩
  | .connecting, .raised | .getting, _ =>
    ⟨Function.update s.tasks i .disconnecting, Function.update s.session c .closed⟩
  | .disconnecting, _ => { s with tasks := Function.update s.tasks i .done }
  | .done, _ => s

/-- The event loop resumes task `i` with outcome `r`; an index with no task stutters. -/
def step (clients : List Client) (s : State) : Nat × Awaited → State
  | (i, r) =>
    match clients[i]? with
    | some c => fetchData c i r s
    | none => s

def run (clients : List Client) (s : State) : List (Nat × Awaited) → State
  | [] => s
  | a :: as => run clients (step clients s a) as

inductive Reachable (clients : List Client) : State → Prop
  | initial : Reachable clients initial
  | step {s : State} (a : Nat × Awaited) :
      Reachable clients s → Reachable clients (step clients s a)

theorem Reachable.run {clients : List Client} {s : State} (h : Reachable clients s) :
    ∀ labels, Reachable clients (PyNetX.Get.run clients s labels)
  | [] => h
  | a :: as => (h.step a).run as

/-- The session a task's client holds where the task stands. -/
def Pc.session : Pc → Session
  | .connecting => .unconnected
  | .getting => .live
  | .disconnecting | .done => .closed

/-- How many more resumptions a task can take before it returns. -/
def Pc.turns : Pc → Nat
  | .connecting => 3
  | .getting => 2
  | .disconnecting => 1
  | .done => 0

variable {cs : List Client} {s : State} {c : Client} {i : Nat} {r : Awaited}

/-- A resumption of task `i` moves only task `i`, a turn closer to returning, and only the
session of its own client. -/
theorem fetchData_effect (c : Client) (i : Nat) (r : Awaited) (s : State) :
    (∀ j ≠ i, (fetchData c i r s).tasks j = s.tasks j) ∧
    (∀ c' ≠ c, (fetchData c i r s).session c' = s.session c') ∧
    (s.session c = (s.tasks i).session →
      (fetchData c i r s).session c = ((fetchData c i r s).tasks i).session) ∧
    ((fetchData c i r s).tasks i).turns ≤ (s.tasks i).turns - 1 := by
  cases h : s.tasks i <;> cases r <;>
    simp +contextual [fetchData, h, Function.update_noteq, Pc.session, Pc.turns]

/-- Each client's session is the one its task's position gives. -/
def Inv (cs : List Client) (s : State) : Prop :=
  ∀ i c, cs[i]? = some c → s.session c = (s.tasks i).session

theorem inv_initial : Inv cs initial := fun _ _ _ => rfl

theorem inv_step (hn : cs.Nodup) (hi : Inv cs s) (a : Nat × Awaited) :
    Inv cs (step cs s a) := by
  obtain ⟨i, r⟩ := a
  intro j d hd
  simp only [step]
  split
  next c hc =>
    obtain ⟨htasks, hsession, hself, -⟩ := fetchData_effect c i r s
    by_cases hji : j = i
    · subst hji
      obtain rfl : d = c := Option.some.inj (hd.symm.trans hc)
      exact hself (hi j d hd)
    · have hdc : d ≠ c := fun hdc => hji (List.getElem?_inj
        (List.getElem?_eq_some_iff.1 hd).1 hn (hd.trans (hdc ▸ hc.symm)))
      rw [hsession d hdc, htasks j hji]
      exact hi j d hd
  next => exact hi j d hd

theorem inv_reachable (hn : cs.Nodup) (h : Reachable cs s) : Inv cs s := by
  induction h with
  | initial => exact inv_initial
  | step a _ ih => exact inv_step hn ih a

/-- Under any interleaving, each client's session is where its own task stands. -/
theorem session_of_task {devices : List Device} (h : Reachable (clients devices) s)
    (hc : (clients devices)[i]? = some c) : s.session c = (s.tasks i).session :=
  inv_reachable (clients_nodup devices) h i c hc

theorem session_of_task_one_device :
    (clients [⟨"h", 830, "u", "p"⟩])[0]? = some ⟨⟨"h", 830, "u", "p"⟩, 0⟩ ∧
    (run (clients [⟨"h", 830, "u", "p"⟩]) initial [(0, .returned [])]).session
        ⟨⟨"h", 830, "u", "p"⟩, 0⟩ =
      ((run (clients [⟨"h", 830, "u", "p"⟩]) initial [(0, .returned [])]).tasks 0).session :=
  ⟨by decide, session_of_task (Reachable.initial.run _) (by decide)⟩

theorem turns_run (hc : cs[i]? = some c) (s : State) (labels : List (Nat × Awaited)) :
    ((run cs s labels).tasks i).turns ≤ (s.tasks i).turns - labels.countP (·.1 = i) := by
  induction labels generalizing s with
  | nil => simp [run]
  | cons a labels ih =>
    obtain ⟨j, r⟩ := a
    have hstep := ih (step cs s (j, r))
    by_cases hji : j = i
    · subst hji
      have := (fetchData_effect c j r s).2.2.2
      simp only [run, step, hc, List.countP_cons, decide_True, if_true] at hstep ⊢
      omega
    · have hframe : (step cs s (j, r)).tasks i = s.tasks i := by
        simp only [step]
        split
        · exact (fetchData_effect _ j r s).1 i (Ne.symm hji)
        · rfl
      simpa [run, hji, hframe] using hstep

/-- After three resumptions of every task, all have returned and every session is closed. -/
theorem gather_closes_every_session (devices : List Device) (labels : List (Nat × Awaited))
    (h : ∀ i < devices.length, 3 ≤ labels.countP (·.1 = i)) :
    (∀ i < devices.length, (run (clients devices) initial labels).tasks i = .done) ∧
    ∀ c ∈ clients devices, (run (clients devices) initial labels).session c = .closed := by
  have hdone : ∀ i < devices.length, (run (clients devices) initial labels).tasks i = .done := by
    intro i hi
    have hi' : i < (clients devices).length := by simpa using hi
    have hturns := turns_run (List.getElem?_eq_getElem hi') initial labels
    have h3 := h i hi
    have h0 : (initial.tasks i).turns = 3 := rfl
    rw [h0] at hturns
    cases hp : (run (clients devices) initial labels).tasks i <;>
      simp only [hp, Pc.turns] at hturns <;> first | rfl | omega
  refine ⟨hdone, fun c hc => ?_⟩
  obtain ⟨i, hi, rfl⟩ := List.getElem_of_mem hc
  rw [session_of_task (Reachable.initial.run labels) (List.getElem?_eq_getElem hi),
    hdone i (by simpa using hi)]
  rfl

theorem gather_closes_every_session_same_entry_twice :
    let devices : List Device := [⟨"h", 830, "u", "p"⟩, ⟨"h", 830, "u", "p"⟩]
    let labels : List (Nat × Awaited) := [(1, .returned []), (0, .raised), (1, .raised),
      (0, .returned []), (1, .returned []), (0, .raised)]
    (∀ i < devices.length, 3 ≤ labels.countP (·.1 = i)) ∧
    (∀ i < devices.length, (run (clients devices) initial labels).tasks i = .done) ∧
    ∀ c ∈ clients devices, (run (clients devices) initial labels).session c = .closed :=
  ⟨by decide, gather_closes_every_session _ _ (by decide)⟩

/-- Task `i` run alone on its client `c`: where one resumption with outcome `r` takes the
task and the session of `c`, as `fetchData` computes it on a state holding nothing else. -/
def alone (c : Client) (ps : Pc × Session) (r : Awaited) : Pc × Session :=
  ((fetchData c 0 r ⟨fun _ => ps.1, fun _ => ps.2⟩).tasks 0,
    (fetchData c 0 r ⟨fun _ => ps.1, fun _ => ps.2⟩).session c)

theorem fetchData_alone (c : Client) (i : Nat) (r : Awaited) (s : State) :
    ((fetchData c i r s).tasks i, (fetchData c i r s).session c) =
      alone c (s.tasks i, s.session c) r := by
  cases h : s.tasks i <;> cases r <;> simp [fetchData, alone, h]

theorem run_alone (hn : cs.Nodup) (hc : cs[i]? = some c) (s : State)
    (labels : List (Nat × Awaited)) :
    ((run cs s labels).tasks i, (run cs s labels).session c) =
      (resultsFor i labels).foldl (alone c) (s.tasks i, s.session c) := by
  induction labels generalizing s with
  | nil => rfl
  | cons l labels ih =>
    obtain ⟨j, r⟩ := l
    rw [run, ih]
    by_cases hji : j = i
    · subst hji
      simp [resultsFor_cons, step, hc, fetchData_alone]
    · have hframe : (step cs s (j, r)).tasks i = s.tasks i ∧
          (step cs s (j, r)).session c = s.session c := by
        simp only [step]
        split
        next d hd =>
          have hdc : c ≠ d := fun hcd => hji (List.getElem?_inj
            (List.getElem?_eq_some_iff.1 hd).1 hn (hd.trans (hcd ▸ hc.symm)))
          exact ⟨(fetchData_effect d j r s).1 i (Ne.symm hji),
            (fetchData_effect d j r s).2.1 c hdc⟩
        next => exact ⟨rfl, rfl⟩
      simp [resultsFor_cons, hji, hframe]

/-- The gather is serializable: no interleaving changes any task's result. -/
theorem gather_runs_tasks_alone {devices : List Device} (hc : (clients devices)[i]? = some c)
    (s : State) (labels : List (Nat × Awaited)) :
    ((run (clients devices) s labels).tasks i, (run (clients devices) s labels).session c) =
      (resultsFor i labels).foldl (alone c) (s.tasks i, s.session c) :=
  run_alone (clients_nodup devices) hc s labels

theorem gather_runs_tasks_alone_same_entry_twice :
    let devices : List Device := [⟨"h", 830, "u", "p"⟩, ⟨"h", 830, "u", "p"⟩]
    let labels : List (Nat × Awaited) := [(1, .returned []), (0, .returned []), (1, .raised),
      (0, .returned []), (0, .raised)]
    (clients devices)[1]? = some ⟨⟨"h", 830, "u", "p"⟩, 1⟩ ∧
    ((run (clients devices) initial labels).tasks 1,
        (run (clients devices) initial labels).session ⟨⟨"h", 830, "u", "p"⟩, 1⟩) =
      (resultsFor 1 labels).foldl (alone ⟨⟨"h", 830, "u", "p"⟩, 1⟩)
        (initial.tasks 1, initial.session ⟨⟨"h", 830, "u", "p"⟩, 1⟩) :=
  ⟨by decide, gather_runs_tasks_alone (by decide) _ _⟩

end PyNetX.Get
