import Mathlib.Data.List.Nodup
import PyNetX.EditConfig.Notification

/-! The `handle_device` tasks of `async_example_edit_config.py`, interleaved at their awaits. -/
namespace PyNetX.EditConfig

open Notification

/-- Where one `handle_device(host, port, username, password)` task is suspended. -/
inductive Pc
  | start
  | connecting (client : Client)
  | gettingConfig (client : Client)
  | subscribing (client : Client)
  | receiving (client : Client) (fullNotif : List Char)
  | finished
  deriving DecidableEq, Repr

/-- The client a task holds in its local `client`. -/
def Pc.client : Pc → Option Client
  | .connecting c | .gettingConfig c | .subscribing c | .receiving c _ => some c
  | _ => none

/-- How many connects a task may still make: one before it has connected. -/
def Pc.budget : Pc → Nat
  | .start | .connecting _ => 1
  | _ => 0

/-- The `NetconfClient` coroutines a task calls on its `client`. -/
inductive Call
  | getConfig
  | subscribe
  | receiveNotification
  deriving DecidableEq, Repr

/-- The shared state of the tasks, with the history of the calls they made. -/
structure State where
  /-- `CONNECTIONS`, keyed by host. -/
  connections : String → Option Client
  /-- Every `NetconfClient` built so far, oldest first. -/
  made : List Client
  /-- Task `i` runs `handle_device` on roster entry `i`. -/
  tasks : Nat → Pc
  /-- Every `get_config_async`, `subscribe_async` and `receive_notification_async` call:
  the task, the call, and the client it went to. -/
  calls : List (Nat × Call × Client)
  /-- Every client whose `connect_async` succeeded, in order. -/
  connected : List Client
  /-- Every frame logged as a Notification, with its task. -/
  logged : List (Nat × List Char)

def initial : State := ⟨fun _ => none, [], fun _ => .start, [], [], []⟩

namespace State

def setPc (s : State) (i : Nat) (p : Pc) : State :=
  { s with tasks := Function.update s.tasks i p }

/-- Task `i` calls `call` on client `c`. -/
def issue (s : State) (i : Nat) (call : Call) (c : Client) : State :=
  { s with calls := s.calls ++ [(i, call, c)] }

/-- The top of the outer `while True`: read `CONNECTIONS[host]` (a missing key ends the
task), then await the first chunk of a new frame. -/
def listen (s : State) (d : Device) (i : Nat) (c : Client) : State :=
  match s.connections d.hostname with
  | none => s.setPc i .finished
  | some _ => (s.issue i .receiveNotification c).setPc i (.receiving c [])

@[simp] theorem setPc_tasks (s : State) (i : Nat) (p : Pc) :
    (s.setPc i p).tasks = Function.update s.tasks i p := rfl
@[simp] theorem setPc_connections (s : State) (i : Nat) (p : Pc) :
    (s.setPc i p).connections = s.connections := rfl
@[simp] theorem setPc_calls (s : State) (i : Nat) (p : Pc) : (s.setPc i p).calls = s.calls := rfl
@[simp] theorem setPc_connected (s : State) (i : Nat) (p : Pc) :
    (s.setPc i p).connected = s.connected := rfl
@[simp] theorem issue_tasks (s : State) (i : Nat) (k : Call) (c : Client) :
    (s.issue i k c).tasks = s.tasks := rfl
@[simp] theorem issue_connections (s : State) (i : Nat) (k : Call) (c : Client) :
    (s.issue i k c).connections = s.connections := rfl
@[simp] theorem issue_calls (s : State) (i : Nat) (k : Call) (c : Client) :
    (s.issue i k c).calls = s.calls ++ [(i, k, c)] := rfl
@[simp] theorem issue_connected (s : State) (i : Nat) (k : Call) (c : Client) :
    (s.issue i k c).connected = s.connected := rfl
@[simp] theorem setPc_logged (s : State) (i : Nat) (p : Pc) : (s.setPc i p).logged = s.logged :=
  rfl
@[simp] theorem issue_logged (s : State) (i : Nat) (k : Call) (c : Client) :
    (s.issue i k c).logged = s.logged := rfl
@[simp] theorem listen_logged (s : State) (d : Device) (i : Nat) (c : Client) :
    (s.listen d i c).logged = s.logged := by
  unfold listen; split <;> rfl
@[simp] theorem listen_connections (s : State) (d : Device) (i : Nat) (c : Client) :
    (s.listen d i c).connections = s.connections := by
  unfold listen; split <;> rfl

end State

/-- Task `i`, running `handle_device` on `d`, resumes; `a` is what its await gave. -/
def handleDevice (d : Device) (i : Nat) (a : Awaited) (s : State) : State :=
  match s.tasks i, a with
  | .start, _ =>
    match s.connections d.hostname with
    | none => { s with made := s.made ++ [newClient s.made d] }.setPc i
        (.connecting (newClient s.made d))
    | some c => (s.issue i .getConfig c).setPc i (.gettingConfig c)
  | .connecting c, .returned _ =>
    ({ s with connections := Function.update s.connections d.hostname (some c),
               connected := s.connected ++ [c] }.issue i .getConfig c).setPc i
      (.gettingConfig c)
  | .gettingConfig c, .returned _ => (s.issue i .subscribe c).setPc i (.subscribing c)
  | .subscribing c, .returned _ => s.listen d i c
  | .receiving c buf, a =>
    match receive buf a with
    | (buf', none) => (s.issue i .receiveNotification c).setPc i (.receiving c buf')
    | (_, some frame) => { s with logged := s.logged ++ [(i, frame)] }.listen d i c
  | .finished, _ => s
  | _, .raised => s.setPc i .finished

/-- Task `i` resumes; an index past the roster names no task. -/
def step (roster : List Device) (s : State) (i : Nat) (a : Awaited) : State :=
  match roster[i]? with
  | none => s
  | some d => handleDevice d i a s

def run (roster : List Device) (s : State) : List (Nat × Awaited) → State
  | [] => s
  | (i, a) :: rest => run roster (step roster s i a) rest

inductive Reachable (roster : List Device) : State → Prop
  | initial : Reachable roster initial
  | step {s : State} (i : Nat) (a : Awaited) :
      Reachable roster s → Reachable roster (step roster s i a)

theorem Reachable.run {roster : List Device} {s : State} (h : Reachable roster s) :
    ∀ labels, Reachable roster (run roster s labels)
  | [] => h
  | (i, a) :: rest => (Reachable.step i a h).run rest

/-- What one resumption of task `i`, running on `d`, can change between `s` and `t`. -/
structure Effect (d : Device) (i : Nat) (s t : State) : Prop where
  others : ∀ j, j ≠ i → t.tasks j = s.tasks j
  cache : (t.connections = s.connections ∧ t.connected = s.connected) ∨
    ∃ c, s.tasks i = .connecting c ∧ t.tasks i = .gettingConfig c ∧
      t.connections = Function.update s.connections d.hostname (some c) ∧
      t.connected = s.connected ++ [c]
  client : ∀ c, (t.tasks i).client = some c →
    (s.tasks i).client = some c ∨ s.connections d.hostname = some c ∨ c = newClient s.made d
  connecting : ∀ c, t.tasks i = .connecting c → c = newClient s.made d
  calls : t.calls = s.calls ∨
    ∃ k c, (t.tasks i).client = some c ∧ t.calls = s.calls ++ [(i, k, c)]
  budget : (t.tasks i).budget ≤ (s.tasks i).budget

theorem effect_setPc {d : Device} {i : Nat} {s s' : State} {p : Pc}
    (htasks : s'.tasks = s.tasks) (hcache : s'.connections = s.connections ∧ s'.connected = s.connected)
    (hcalls : s'.calls = s.calls ∨ ∃ k c, p.client = some c ∧ s'.calls = s.calls ++ [(i, k, c)])
    (hclient : ∀ c, p.client = some c →
      (s.tasks i).client = some c ∨ s.connections d.hostname = some c)
    (hconn : ∀ c, p ≠ .connecting c) (hb : p.budget ≤ (s.tasks i).budget) :
    Effect d i s (s'.setPc i p) where
  others j hj := by simp [Function.update_noteq hj, htasks]
  cache := .inl (by simpa using hcache)
  client c h := (hclient c (by simpa using h)).imp id .inl
  connecting c h := absurd (by simpa using h) (hconn c)
  calls := by simpa using hcalls
  budget := by simpa using hb

theorem listen_effect (s : State) (l : List (Nat × List Char)) (d : Device) (i : Nat)
    (c : Client) (hc : (s.tasks i).client = some c) :
    Effect d i s ({ s with logged := l }.listen d i c) := by
  unfold State.listen
  split
  · exact effect_setPc rfl ⟨rfl, rfl⟩ (.inl rfl) (by simp [Pc.client]) (by simp) (by simp [Pc.budget])
  · exact effect_setPc rfl ⟨rfl, rfl⟩ (.inr ⟨_, c, rfl, rfl⟩)
      (fun _ h => .inl (by simp_all [Pc.client])) (by simp) (by simp [Pc.budget])

theorem handleDevice_effect (d : Device) (i : Nat) (a : Awaited) (s : State) :
    Effect d i s (handleDevice d i a s) := by
  unfold handleDevice
  split
  next =>
    split
    next => constructor <;> simp_all [Function.update_apply, Pc.client, Pc.budget]
    next c hc =>
      exact effect_setPc rfl ⟨rfl, rfl⟩ (.inr ⟨_, c, rfl, rfl⟩)
        (fun _ h => .inr (by simp_all [Pc.client])) (by simp) (by simp [Pc.budget])
  next c _ h => constructor <;> simp_all [Function.update_apply, Pc.client, Pc.budget]
  next c _ h =>
    exact effect_setPc rfl ⟨rfl, rfl⟩ (.inr ⟨_, c, rfl, rfl⟩)
      (fun _ h' => .inl (by simp_all [Pc.client])) (by simp) (by simp [h, Pc.budget])
  next c _ h => exact listen_effect s _ d i c (by simp [h, Pc.client])
  next _ c buf h =>
    split
    next =>
      exact effect_setPc rfl ⟨rfl, rfl⟩ (.inr ⟨_, c, rfl, rfl⟩)
        (fun _ h' => .inl (by simp_all [Pc.client])) (by simp) (by simp [h, Pc.budget])
    next => exact listen_effect s _ d i c (by simp [h, Pc.client])
  next => constructor <;> simp_all
  next =>
    exact effect_setPc rfl ⟨rfl, rfl⟩ (.inl rfl) (by simp [Pc.client]) (by simp)
      (by simp [Pc.budget])

theorem step_effect {roster : List Device} {i : Nat} {d : Device}
    (hd : roster[i]? = some d) (s : State) (a : Awaited) :
    Effect d i s (step roster s i a) := by
  simpa [step, hd] using handleDevice_effect d i a s

theorem step_of_getElem?_eq_none {roster : List Device} {i : Nat}
    (hd : roster[i]? = none) (s : State) (a : Awaited) : step roster s i a = s := by
  simp [step, hd]

variable {roster : List Device} {s : State}

/-- Every client held by the cache or by a task, and every client a call went to, was
built for a roster device of the host it is filed under or used for. -/
structure HostInv (roster : List Device) (s : State) : Prop where
  cache : ∀ h c, s.connections h = some c → c.device ∈ roster ∧ c.device.hostname = h
  held : ∀ i d c, roster[i]? = some d → (s.tasks i).client = some c →
    c.device ∈ roster ∧ c.device.hostname = d.hostname
  calls : ∀ e ∈ s.calls, ∃ d, roster[e.1]? = some d ∧
    e.2.2.device ∈ roster ∧ e.2.2.device.hostname = d.hostname

theorem hostInv_initial : HostInv roster initial :=
  ⟨by simp [initial], by simp [initial, Pc.client], by simp [initial]⟩

theorem hostInv_step (h : HostInv roster s) (i : Nat) (a : Awaited) :
    HostInv roster (step roster s i a) := by
  cases hd : roster[i]? with
  | none => rwa [step_of_getElem?_eq_none hd]
  | some d =>
    have e := step_effect hd s a
    have held : ∀ j d' c, roster[j]? = some d' → ((step roster s i a).tasks j).client = some c →
        c.device ∈ roster ∧ c.device.hostname = d'.hostname := by
      intro j d' c hj hc
      by_cases hji : j = i
      · subst hji
        obtain rfl : d' = d := Option.some.inj (hj.symm.trans hd)
        rcases e.client c hc with hc | hc | rfl
        · exact h.held j d' c hj hc
        · exact h.cache _ c hc
        · exact ⟨List.getElem?_mem hj, rfl⟩
      · rw [e.others j hji] at hc
        exact h.held j d' c hj hc
    refine ⟨?_, held, ?_⟩
    · rcases e.cache with ⟨hc, -⟩ | ⟨c, hs, -, hc, -⟩
      · rw [hc]; exact h.cache
      · intro k c' hk
        rw [hc, Function.update_apply] at hk
        split at hk
        · cases hk
          subst k
          exact h.held i d c hd (by simp [hs, Pc.client])
        · exact h.cache k c' hk
    · rcases e.calls with hc | ⟨k, c, hcl, hc⟩
      · rw [hc]; exact h.calls
      · rw [hc]
        intro x hx
        rcases List.mem_append.1 hx with hx | hx
        · exact h.calls x hx
        · obtain rfl := List.mem_singleton.1 hx
          exact ⟨d, hd, held i d c hd hcl⟩

theorem hostInv_reachable (h : Reachable roster s) : HostInv roster s := by
  induction h with
  | initial => exact hostInv_initial
  | step i a _ ih => exact hostInv_step ih i a

/-- Every call a task makes goes to a client built for a roster entry with that task's
host; when no two entries share a host but not a port, to one built with its host and port. -/
theorem calls_to_own_device (h : Reachable roster s) :
    (∀ e ∈ s.calls, ∃ d, roster[e.1]? = some d ∧
      e.2.2.device ∈ roster ∧ e.2.2.device.hostname = d.hostname) ∧
    ((∀ d ∈ roster, ∀ d' ∈ roster, d.hostname = d'.hostname → d.port = d'.port) →
      ∀ e ∈ s.calls, ∃ d, roster[e.1]? = some d ∧ e.2.2.device.key = d.key) := by
  have hcalls := (hostInv_reachable h).calls
  refine ⟨hcalls, fun hp e he => ?_⟩
  obtain ⟨d, hd, hm, hh⟩ := hcalls e he
  exact ⟨d, hd, Prod.ext hh (hp _ hm d (List.getElem?_mem hd) hh)⟩

theorem calls_to_own_device_two_hosts :
    let roster := [⟨"a", 830, "u", "p"⟩, ⟨"b", 830, "u", "p"⟩]
    let s := run roster initial [(0, .raised), (1, .raised), (0, .returned []), (1, .raised)]
    (Reachable roster s ∧
      ∀ d ∈ roster, ∀ d' ∈ roster, d.hostname = d'.hostname → d.port = d'.port) ∧
    (∀ e ∈ s.calls, ∃ d, roster[e.1]? = some d ∧
      e.2.2.device ∈ roster ∧ e.2.2.device.hostname = d.hostname) ∧
    ∀ e ∈ s.calls, ∃ d, roster[e.1]? = some d ∧ e.2.2.device.key = d.key :=
  ⟨⟨Reachable.initial.run _, by decide⟩, (calls_to_own_device (Reachable.initial.run _)).1,
    (calls_to_own_device (Reachable.initial.run _)).2 (by decide)⟩

/-- Each task connects at most once, and only with a client built for its own device. -/
structure OnceInv (roster : List Device) (s : State) : Prop where
  connected : ∀ c ∈ s.connected, c.device ∈ roster
  connecting : ∀ i d c, roster[i]? = some d → s.tasks i = .connecting c → c.device = d
  once : ∀ i d, roster[i]? = some d →
    s.connected.countP (·.device = d) + (s.tasks i).budget ≤ 1

theorem onceInv_initial : OnceInv roster initial :=
  ⟨by simp [initial], by simp [initial], by simp [initial, Pc.budget]⟩

theorem device_ne_of_nodup (hn : (roster.map Device.key).Nodup) {i j : Nat} {d d' : Device}
    (hi : roster[i]? = some d) (hj : roster[j]? = some d') (hij : j ≠ i) : d' ≠ d := by
  rintro rfl
  have hlt : j < roster.length := (List.getElem?_eq_some_iff.1 hj).1
  exact hij (List.getElem?_inj hlt (List.Nodup.of_map _ hn) (hj.trans hi.symm))

theorem onceInv_step (hn : (roster.map Device.key).Nodup) (h : OnceInv roster s)
    (i : Nat) (a : Awaited) : OnceInv roster (step roster s i a) := by
  cases hd : roster[i]? with
  | none => rwa [step_of_getElem?_eq_none hd]
  | some d =>
    have e := step_effect hd s a
    refine ⟨?_, ?_, ?_⟩
    · rcases e.cache with ⟨-, hc⟩ | ⟨c, hs, -, -, hc⟩
      · rw [hc]; exact h.connected
      · rw [hc]
        intro x hx
        rcases List.mem_append.1 hx with hx | hx
        · exact h.connected x hx
        · obtain rfl := List.mem_singleton.1 hx
          rw [h.connecting i d x hd hs]
          exact List.getElem?_mem hd
    · intro j d' c hj hc
      by_cases hji : j = i
      · subst hji
        obtain rfl : d' = d := Option.some.inj (hj.symm.trans hd)
        rw [e.connecting c hc]
        rfl
      · rw [e.others j hji] at hc
        exact h.connecting j d' c hj hc
    · intro j d' hj
      have hb := e.budget
      by_cases hji : j = i
      · subst hji
        obtain rfl : d' = d := Option.some.inj (hj.symm.trans hd)
        have hs := h.once j d' hj
        rcases e.cache with ⟨-, hc⟩ | ⟨c, hs', ht, -, hc⟩
        · rw [hc]
          exact le_trans (Nat.add_le_add_left hb _) hs
        · have h0 : s.connected.countP (·.device = d') = 0 := by
            simp only [hs', Pc.budget] at hs
            omega
          rw [hc, List.countP_append, h0, ht]
          simp [Pc.budget, h.connecting j d' c hj hs']
      · rw [e.others j hji]
        rcases e.cache with ⟨-, hc⟩ | ⟨c, hs', -, -, hc⟩
        · rw [hc]; exact h.once j d' hj
        · have hne := device_ne_of_nodup hn hd hj hji
          rw [hc, List.countP_append]
          simpa [h.connecting i d c hd hs', hne.symm] using h.once j d' hj

theorem onceInv_reachable (hn : (roster.map Device.key).Nodup) (h : Reachable roster s) :
    OnceInv roster s := by
  induction h with
  | initial => exact onceInv_initial
  | step i a _ ih => exact onceInv_step hn ih i a

/-- When the roster's host and port pairs are distinct, at most one client is ever
connected for each of them. -/
theorem connected_once (hn : (roster.map Device.key).Nodup) (h : Reachable roster s)
    (k : String × Nat) : s.connected.countP (·.device.key = k) ≤ 1 := by
  have inv := onceInv_reachable hn h
  by_cases hk : ∃ d ∈ roster, d.key = k
  · obtain ⟨d, hm, rfl⟩ := hk
    obtain ⟨i, hi⟩ := List.mem_iff_getElem?.1 hm
    have hcongr : s.connected.countP (·.device.key = d.key) =
        s.connected.countP (·.device = d) := by
      refine List.countP_congr fun c hc => ?_
      simp only [decide_eq_true_eq]
      exact ⟨fun he => List.inj_on_of_nodup_map hn (inv.connected c hc) hm he,
        fun he => he ▸ rfl⟩
    have := inv.once i d hi
    omega
  · push_neg at hk
    have : s.connected.countP (·.device.key = k) = 0 :=
      List.countP_eq_zero.2 fun c hc => by simpa using hk c.device (inv.connected c hc)
    omega

theorem connected_once_two_hosts :
    let roster := [⟨"a", 830, "u", "p"⟩, ⟨"b", 830, "u", "p"⟩]
    let s := run roster initial [(0, .raised), (1, .raised), (0, .returned []), (1, .raised)]
    (roster.map Device.key).Nodup ∧ s.connected.countP (·.device.key = ("a", 830)) ≤ 1 :=
  ⟨by decide, connected_once (by decide) (Reachable.initial.run _) _⟩

/-- Two tasks for one host both connect; a task for another port of that host then calls
the client built for port 830. -/
theorem shared_host_run :
    ∃ s, Reachable [⟨"h", 830, "u", "p"⟩, ⟨"h", 830, "u", "p"⟩, ⟨"h", 831, "u", "p"⟩] s ∧
      s.connected.countP (·.device.key = ("h", 830)) = 2 ∧
      (2, .getConfig, ⟨⟨"h", 830, "u", "p"⟩, 1⟩) ∈ s.calls :=
  ⟨_, Reachable.initial.run
    [(0, .raised), (1, .raised), (0, .returned []), (1, .returned []), (2, .raised)],
    by decide⟩

end PyNetX.EditConfig
