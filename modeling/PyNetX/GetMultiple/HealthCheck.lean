import PyNetX.Basic

/-! The connection manager one device at a time: initial connect and health check. -/
namespace PyNetX.GetMultiple

/-- What the connection manager and the fetch tasks share: the `connections` dict,
every client built so far, and the session each client holds. -/
structure Net where
  connections : String × Nat → Option Client
  made : List Client
  session : Client → Session

namespace Net

/-- `NetconfClient(...)` builds a client for `d`. -/
def build (n : Net) (d : Device) : Net := { n with made := n.made ++ [newClient n.made d] }

/-- `connect_async` on `c` succeeded, and `connections[key] = c` stores it. -/
def install (n : Net) (c : Client) : Net :=
  { n with connections := Function.update n.connections c.device.key (some c),
           session := Function.update n.session c .live }

/-- `disconnect_async` is issued on `c`. -/
def disconnect (n : Net) (c : Client) : Net :=
  { n with session := Function.update n.session c .closed }

/-- The clients built for key `k`: each got exactly one `connect_async` call. -/
def tries (n : Net) (k : String × Nat) : Nat := n.made.countP (·.device.key = k)

/-- What `connections` holds for `k`, and the clients built for `k`. -/
def view (n : Net) (k : String × Nat) : Option Client × List Client :=
  (n.connections k, n.made.filter (·.device.key = k))

@[simp] theorem build_connections (n : Net) (d : Device) :
    (n.build d).connections = n.connections := rfl
@[simp] theorem build_made (n : Net) (d : Device) :
    (n.build d).made = n.made ++ [newClient n.made d] := rfl
@[simp] theorem build_session (n : Net) (d : Device) : (n.build d).session = n.session := rfl
@[simp] theorem install_connections (n : Net) (c : Client) :
    (n.install c).connections = Function.update n.connections c.device.key (some c) := rfl
@[simp] theorem install_made (n : Net) (c : Client) : (n.install c).made = n.made := rfl
@[simp] theorem disconnect_connections (n : Net) (c : Client) :
    (n.disconnect c).connections = n.connections := rfl
@[simp] theorem disconnect_made (n : Net) (c : Client) : (n.disconnect c).made = n.made := rfl

@[simp] theorem disconnect_session_self (n : Net) (c : Client) :
    (n.disconnect c).session c = .closed := by simp [disconnect]
theorem disconnect_session_of_ne (n : Net) {c o : Client} (h : o ≠ c) :
    (n.disconnect c).session o = n.session o := by simp [disconnect, h]
@[simp] theorem install_session_self (n : Net) (c : Client) :
    (n.install c).session c = .live := by simp [install]
theorem install_session_of_ne (n : Net) {c o : Client} (h : o ≠ c) :
    (n.install c).session o = n.session o := by simp [install, h]

theorem disconnect_session_closed {n : Net} {o : Client} (h : n.session o = .closed)
    (c : Client) : (n.disconnect c).session o = .closed := by
  by_cases hoc : o = c
  · simp [hoc]
  · rwa [disconnect_session_of_ne _ hoc]

theorem disconnect_session_ne_unconnected {n : Net} {o : Client}
    (h : n.session o ≠ .unconnected) (c : Client) :
    (n.disconnect c).session o ≠ .unconnected := by
  by_cases hoc : o = c
  · simp [hoc]
  · rwa [disconnect_session_of_ne _ hoc]

theorem tries_eq_view (n : Net) (k : String × Nat) : n.tries k = (n.view k).2.length := by
  simp [tries, view, List.countP_eq_length_filter]

/-- Each client built has a serial below the count built for its device, so the next
client built is a new object. -/
def Distinct (n : Net) : Prop := ∀ c ∈ n.made, c.serial < n.made.countP (·.device = c.device)

end Net

/-- `async_is_connection_alive`: alive when the probe `get_async("")` returned a reply
holding `<rpc-reply`; an exception means dead. -/
def asyncIsConnectionAlive : Awaited → Bool
  | .returned reply => decide ("<rpc-reply".toList <:+: reply)
  | .raised => false

/-- `async_connect_device` and the store after it; a failed connect stores nothing. -/
def asyncConnectDevice (d : Device) (r : Awaited) (n : Net) : Net :=
  match r with
  | .returned _ => (n.build d).install (newClient n.made d)
  | .raised => n.build d

/-- What the awaits of one device's check give: probe, old client's disconnect, connect. -/
structure Outcomes where
  probe : Awaited
  disconnect : Awaited
  connect : Awaited

/-- `async_reconnect_device`: disconnect the old client if any, then connect a new one. -/
def asyncReconnectDevice (d : Device) (o : Outcomes) (n : Net) : Net :=
  match n.connections d.key with
  | some old => asyncConnectDevice d o.connect (n.disconnect old)
  | none => asyncConnectDevice d o.connect n

/-- One pass of the body of the periodic `for device in devices` loop. A failed
reconnect is caught and logged. -/
def checkDevice (n : Net) (d : Device) (o : Outcomes) : Net :=
  match n.connections d.key with
  | none => asyncReconnectDevice d o n
  | some _ => if asyncIsConnectionAlive o.probe then n else asyncReconnectDevice d o n

/-- One health-check cycle over the roster, each device with the outcomes of its own
awaits. -/
def healthCheck (n : Net) : List (Device × Outcomes) → Net
  | [] => n
  | (d, o) :: rest => healthCheck (checkDevice n d o) rest

/-- The initial phase: connect every device in turn, storing the ones that connect. -/
def initialConnect (n : Net) : List (Device × Awaited) → Net
  | [] => n
  | (d, r) :: rest => initialConnect (asyncConnectDevice d r n) rest

variable {n m : Net} {d : Device} {o : Outcomes} {k : String × Nat}

theorem newClient_filter_key (made : List Client) (d : Device) :
    newClient (made.filter (·.device.key = d.key)) d = newClient made d := by
  simp only [newClient, List.countP_filter, Client.mk.injEq, true_and]
  refine List.countP_congr fun c _ => ?_
  simp only [Bool.and_eq_true, decide_eq_true_eq, and_iff_left_iff_imp]
  rintro rfl
  rfl

/-- What the connect of a reconnect leaves at the device's own key. -/
def afterReconnect (n : Net) (d : Device) : Awaited → Option Client
  | .returned _ => some (newClient n.made d)
  | .raised => n.connections d.key

@[simp] theorem asyncConnectDevice_made (d : Device) (r : Awaited) (n : Net) :
    (asyncConnectDevice d r n).made = n.made ++ [newClient n.made d] := by
  cases r <;> rfl

theorem asyncConnectDevice_session_of_ne {c : Client} (h : c ≠ newClient n.made d) (r : Awaited) :
    (asyncConnectDevice d r n).session c = n.session c := by
  cases r <;> simp [asyncConnectDevice, Net.install_session_of_ne _ h]

theorem checkDevice_cases (n : Net) (d : Device) (o : Outcomes) :
    checkDevice n d o = n ∨ checkDevice n d o = asyncReconnectDevice d o n := by
  unfold checkDevice
  split
  · exact .inr rfl
  · split <;> simp

theorem asyncReconnectDevice_made (d : Device) (o : Outcomes) (n : Net) :
    (asyncReconnectDevice d o n).made = n.made ++ [newClient n.made d] := by
  unfold asyncReconnectDevice; split <;> simp

theorem asyncReconnectDevice_session {c : Client} (hc : c ≠ newClient n.made d) :
    (asyncReconnectDevice d o n).session c = n.session c ∨
      (asyncReconnectDevice d o n).session c = .closed := by
  unfold asyncReconnectDevice
  split
  next old _ =>
    rw [asyncConnectDevice_session_of_ne (by simpa using hc)]
    by_cases h : c = old
    · simp [h]
    · simp [Net.disconnect_session_of_ne _ h]
  next => exact .inl (asyncConnectDevice_session_of_ne hc _)

theorem checkDevice_made (n : Net) (d : Device) (o : Outcomes) :
    (checkDevice n d o).made = n.made ∨
      (checkDevice n d o).made = n.made ++ [newClient n.made d] := by
  rcases checkDevice_cases n d o with h | h <;> rw [h]
  · exact .inl rfl
  · exact .inr (asyncReconnectDevice_made d o n)

theorem checkDevice_session {c : Client} (hc : c ≠ newClient n.made d) :
    (checkDevice n d o).session c = n.session c ∨ (checkDevice n d o).session c = .closed := by
  rcases checkDevice_cases n d o with h | h <;> rw [h]
  · exact .inl rfl
  · exact asyncReconnectDevice_session hc

theorem Net.distinct_checkDevice (h : n.Distinct) : (checkDevice n d o).Distinct := by
  unfold Net.Distinct
  rcases checkDevice_made n d o with he | he <;> rw [he]
  · exact h
  · exact serials_append_newClient h d

theorem mem_checkDevice {c : Client} (hc : c ∈ n.made) : c ∈ (checkDevice n d o).made := by
  rcases checkDevice_made n d o with he | he <;> rw [he]
  · exact hc
  · exact List.mem_append_left _ hc

theorem checkDevice_closed {c : Client} (h : n.Distinct) (hc : c ∈ n.made)
    (hcl : n.session c = .closed) : (checkDevice n d o).session c = .closed :=
  (checkDevice_session fun he => newClient_not_mem h d (he ▸ hc)).elim (·.trans hcl) id

theorem checkDevice_closes_dead {old : Client} (h : n.Distinct)
    (hold : n.connections d.key = some old) (hmem : old ∈ n.made)
    (ha : asyncIsConnectionAlive o.probe = false) : (checkDevice n d o).session old = .closed := by
  have hne : old ≠ newClient n.made d := fun he => newClient_not_mem h d (he ▸ hmem)
  simp only [checkDevice, asyncReconnectDevice, hold, ha, Bool.false_eq_true, if_false]
  rw [asyncConnectDevice_session_of_ne (by simpa using hne)]
  simp

theorem healthCheck_append (n : Net) (l₁ l₂ : List (Device × Outcomes)) :
    healthCheck n (l₁ ++ l₂) = healthCheck (healthCheck n l₁) l₂ := by
  induction l₁ generalizing n with
  | nil => rfl
  | cons p l ih => exact ih _

theorem healthCheck_built {c : Client} (pairs : List (Device × Outcomes)) (h : n.Distinct)
    (hc : c ∈ n.made) : (healthCheck n pairs).Distinct ∧ c ∈ (healthCheck n pairs).made := by
  induction pairs generalizing n with
  | nil => exact ⟨h, hc⟩
  | cons p pairs ih => exact ih (Net.distinct_checkDevice h) (mem_checkDevice hc)

theorem healthCheck_closed {c : Client} (pairs : List (Device × Outcomes)) (h : n.Distinct)
    (hc : c ∈ n.made) (hcl : n.session c = .closed) :
    (healthCheck n pairs).session c = .closed := by
  induction pairs generalizing n with
  | nil => exact hcl
  | cons p pairs ih =>
    exact ih (Net.distinct_checkDevice h) (mem_checkDevice hc) (checkDevice_closed h hc hcl)

theorem view_asyncConnectDevice (d : Device) (r : Awaited) (n : Net) :
    (asyncConnectDevice d r n).view d.key =
      (afterReconnect n d r, (n.view d.key).2 ++ [newClient n.made d]) := by
  cases r <;> simp [asyncConnectDevice, afterReconnect, Net.view, List.filter_append]

theorem view_asyncConnectDevice_of_ne (h : d.key ≠ k) (r : Awaited) (n : Net) :
    (asyncConnectDevice d r n).view k = n.view k := by
  cases r <;> simp [asyncConnectDevice, Net.view, List.filter_append, h, Function.update_apply,
    Ne.symm h]

theorem view_disconnect (n : Net) (c : Client) (k : String × Nat) :
    (n.disconnect c).view k = n.view k := rfl

theorem view_checkDevice_of_reconnect
    (h : n.connections d.key = none ∨ asyncIsConnectionAlive o.probe = false) :
    (checkDevice n d o).view d.key =
      (afterReconnect n d o.connect, (n.view d.key).2 ++ [newClient n.made d]) := by
  unfold checkDevice asyncReconnectDevice
  rcases hc : n.connections d.key with _ | old
  · simp [view_asyncConnectDevice, hc]
  · simp only [hc, reduceCtorEq, false_or] at h
    simp [h, view_asyncConnectDevice, afterReconnect, hc, view_disconnect]

theorem checkDevice_of_alive (hc : n.connections d.key = some c)
    (ha : asyncIsConnectionAlive o.probe = true) : checkDevice n d o = n := by
  simp [checkDevice, hc, ha]

theorem view_checkDevice_of_ne (h : d.key ≠ k) : (checkDevice n d o).view k = n.view k := by
  unfold checkDevice asyncReconnectDevice
  split <;> (try split) <;> (try split) <;>
    simp_all [view_asyncConnectDevice_of_ne h, view_disconnect]

theorem view_checkDevice_congr (h : n.view d.key = m.view d.key) :
    (checkDevice n d o).view d.key = (checkDevice m d o).view d.key := by
  simp only [Net.view, Prod.mk.injEq] at h
  have hnew : newClient n.made d = newClient m.made d := by
    rw [← newClient_filter_key, h.2, newClient_filter_key]
  by_cases hr : n.connections d.key = none ∨ asyncIsConnectionAlive o.probe = false
  · rw [view_checkDevice_of_reconnect hr, view_checkDevice_of_reconnect (h.1 ▸ hr)]
    cases o.connect <;> simp [afterReconnect, Net.view, h, hnew]
  · simp only [not_or, Bool.not_eq_false] at hr
    obtain ⟨c, hc⟩ := Option.ne_none_iff_exists'.1 hr.1
    rw [checkDevice_of_alive hc hr.2, checkDevice_of_alive (h.1 ▸ hc) hr.2]
    simp [Net.view, h]

theorem view_healthCheck_of_not_mem (pairs : List (Device × Outcomes))
    (h : ∀ p ∈ pairs, p.1.key ≠ k) (n : Net) : (healthCheck n pairs).view k = n.view k := by
  induction pairs generalizing n with
  | nil => rfl
  | cons p pairs ih =>
    simp only [List.forall_mem_cons] at h
    rw [healthCheck, ih h.2, view_checkDevice_of_ne h.1]

/-- With distinct keys, a cycle leaves at each device's key what checking that device
alone would. -/
theorem view_healthCheck (pairs : List (Device × Outcomes))
    (hn : (pairs.map (·.1.key)).Nodup) (hd : (d, o) ∈ pairs) (n : Net) :
    (healthCheck n pairs).view d.key = (checkDevice n d o).view d.key := by
  induction pairs generalizing n with
  | nil => cases hd
  | cons p pairs ih =>
    simp only [List.map_cons, List.nodup_cons, List.mem_map, not_exists, not_and] at hn
    rw [healthCheck]
    rcases List.mem_cons.1 hd with rfl | hd
    · exact view_healthCheck_of_not_mem pairs (fun q hq he => hn.1 q hq he) _
    · have hne : p.1.key ≠ d.key := fun he => hn.1 _ hd he.symm
      rw [ih hn.2 hd, view_checkDevice_congr (view_checkDevice_of_ne hne)]

/-- One cycle over distinct keys, per device: a live entry is kept; a dead or missing one
gets one connect, and a dead entry's client is closed; other keys do not matter. -/
theorem healthCheck_per_device (pairs : List (Device × Outcomes))
    (hn : (pairs.map (·.1.key)).Nodup) (hd : (d, o) ∈ pairs) (n : Net) :
    (∀ c, n.connections d.key = some c → asyncIsConnectionAlive o.probe = true →
      (healthCheck n pairs).connections d.key = some c ∧
        (healthCheck n pairs).tries d.key = n.tries d.key) ∧
    ((n.connections d.key = none ∨ asyncIsConnectionAlive o.probe = false) →
      (healthCheck n pairs).tries d.key = n.tries d.key + 1 ∧
        (healthCheck n pairs).connections d.key = afterReconnect n d o.connect) ∧
    (∀ old, n.connections d.key = some old → asyncIsConnectionAlive o.probe = false →
      old ∈ n.made → n.Distinct → (healthCheck n pairs).session old = .closed) ∧
    ∀ others : List (Device × Outcomes), others.map Prod.fst = pairs.map Prod.fst →
      (d, o) ∈ others → (healthCheck n others).view d.key = (healthCheck n pairs).view d.key := by
  have hv := view_healthCheck pairs hn hd n
  refine ⟨fun c hc ha => ?_, fun hr => ?_, fun old hold ha hmem hdist => ?_,
    fun others he hd' => ?_⟩
  · rw [checkDevice_of_alive hc ha] at hv
    simp only [Net.view, Prod.mk.injEq] at hv
    simp [Net.tries_eq_view, Net.view, hv, hc]
  · rw [view_checkDevice_of_reconnect hr] at hv
    simp only [Net.view, Prod.mk.injEq] at hv
    simp [Net.tries_eq_view, Net.view, hv]
  · -- the devices before `d` leave its entry alone; its own check closes the old session
    obtain ⟨pre, post, rfl⟩ := List.append_of_mem hd
    have hpre : ∀ p ∈ pre, p.1.key ≠ d.key := by
      intro p hp
      rw [List.map_append] at hn
      exact (List.pairwise_append.1 hn).2.2 _ (List.mem_map_of_mem _ hp) _
        (List.mem_map_of_mem _ (List.mem_cons_self _ _))
    have hm : (healthCheck n pre).connections d.key = some old := by
      have := congrArg Prod.fst (view_healthCheck_of_not_mem pre hpre n)
      simpa [Net.view, hold] using this
    obtain ⟨hmd, hmm⟩ := healthCheck_built pre hdist hmem
    rw [healthCheck_append, healthCheck]
    exact healthCheck_closed post (Net.distinct_checkDevice hmd) (mem_checkDevice hmm)
      (checkDevice_closes_dead hmd hm hmm ha)
  · have keys : ∀ l : List (Device × Outcomes), l.map (·.1.key) = (l.map Prod.fst).map (·.key) :=
      fun l => by simp
    have hn' : (others.map (·.1.key)).Nodup := by
      rw [keys, he, ← keys]
      exact hn
    rw [view_healthCheck others hn' hd', hv]

theorem healthCheck_per_device_dead_entry :
    let a : Device := ⟨"a", 830, "u", "p"⟩
    let dead : Outcomes := ⟨.raised, .raised, .raised⟩
    let pairs := [(a, dead), (⟨"b", 830, "u", "p"⟩, dead)]
    let n : Net := ⟨Function.update (fun _ => none) a.key (some ⟨a, 0⟩), [⟨a, 0⟩], fun _ => .live⟩
    ((pairs.map (·.1.key)).Nodup ∧ (a, dead) ∈ pairs ∧ (⟨a, 0⟩ : Client) ∈ n.made ∧
      n.Distinct) ∧
    (healthCheck n pairs).connections a.key = afterReconnect n a .raised ∧
      (healthCheck n pairs).session ⟨a, 0⟩ = .closed := by
  intro a dead pairs n
  have hd : n.Distinct := by simp [Net.Distinct, n, newClient]
  have h := @healthCheck_per_device a dead pairs (by decide) (by simp [pairs]) n
  exact ⟨⟨by decide, by simp [pairs], by simp [n], hd⟩, (h.2.1 (.inr rfl)).2,
    h.2.2.1 ⟨a, 0⟩ (by simp [n, a]) rfl (by simp [n]) hd⟩

/-- A failed reconnect keeps the dead client stored; a doubled device gets two connects. -/
theorem healthCheck_keeps_failed_entry :
    (¬ ∀ (n : Net) (pairs : List (Device × Outcomes)) (d : Device) (o : Outcomes),
      (d, o) ∈ pairs → asyncIsConnectionAlive o.probe = false → o.connect = .raised →
        (healthCheck n pairs).connections d.key = none) ∧
    (¬ ∀ (n : Net) (pairs : List (Device × Outcomes)) (d : Device) (o : Outcomes),
      (d, o) ∈ pairs → n.connections d.key = none →
        (healthCheck n pairs).tries d.key = n.tries d.key + 1) := by
  let d : Device := ⟨"h", 830, "u", "p"⟩
  let dead : Outcomes := ⟨.raised, .raised, .raised⟩
  constructor
  · intro h
    have := h ⟨Function.update (fun _ => none) d.key (some ⟨d, 0⟩), [⟨d, 0⟩], fun _ => .live⟩
      [(d, dead)] d dead (by simp) rfl rfl
    revert this
    decide
  · intro h
    have := h ⟨fun _ => none, [], fun _ => .unconnected⟩ [(d, dead), (d, dead)] d dead
      (by simp) rfl
    revert this
    decide

end PyNetX.GetMultiple
