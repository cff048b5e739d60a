import PyNetX.GetMultiple.Threads

/-! Every client in `connections`, and every client a fetch task holds, is its key's. -/
namespace PyNetX.GetMultiple

/-- Every value of `connections` is a client built for a roster device, filed under that
device's key. -/
def KeyedRegistry (devices : List Device) (n : Net) : Prop :=
  ∀ k c, n.connections k = some c → c.device ∈ devices ∧ c.device.key = k

/-- The devices the manager's loops still visit, and the client it is connecting, are
the roster's. -/
def Manager.InRoster (devices : List Device) : Manager → Prop
  | .initial todo | .cycle todo => todo ⊆ devices
  | .initialConnect c todo | .connect c todo => c.device ∈ devices ∧ todo ⊆ devices
  | .probe d _ todo | .disconnect d _ todo => d ∈ devices ∧ todo ⊆ devices
  | .sleeping => True

/-- A fetch task that holds a client holds one built for a roster device with its key. -/
def Fetch.Keyed (devices : List Device) : Fetch → Prop
  | .get key c | .disconnect key c => c.device ∈ devices ∧ c.device.key = key
  | _ => True

variable {devices : List Device} {n : Net} {c : Client}

theorem keyedRegistry_install (h : KeyedRegistry devices n) (hc : c.device ∈ devices) :
    KeyedRegistry devices (n.install c) := by
  intro k o hk
  rw [Net.install_connections, Function.update_apply] at hk
  split at hk
  · cases hk; exact ⟨hc, by simp_all⟩
  · exact h k o hk

theorem keyed_reconnect (h : KeyedRegistry devices n) {d : Device} (hd : d ∈ devices)
    {todo : List Device} (ht : todo ⊆ devices) :
    KeyedRegistry devices (reconnect n d todo).1 ∧ (reconnect n d todo).2.InRoster devices := by
  unfold reconnect
  split
  · exact ⟨h, hd, ht⟩
  · exact ⟨h, by simpa using hd, ht⟩

theorem keyed_managerStep (h : KeyedRegistry devices n) {m : Manager}
    (hm : m.InRoster devices) (r : Awaited) :
    KeyedRegistry devices (managerStep devices r n m).1 ∧
      (managerStep devices r n m).2.InRoster devices := by
  cases m with
  | initial todo =>
    cases todo with
    | nil => exact ⟨h, trivial⟩
    | cons d todo =>
      simp only [Manager.InRoster, List.cons_subset] at hm
      exact ⟨h, by simpa using hm.1, hm.2⟩
  | initialConnect c todo =>
    cases r
    · exact ⟨keyedRegistry_install h hm.1, hm.2⟩
    · exact ⟨h, hm.2⟩
  | sleeping => exact ⟨h, List.Subset.refl _⟩
  | cycle todo =>
    cases todo with
    | nil => exact ⟨h, trivial⟩
    | cons d todo =>
      simp only [Manager.InRoster, List.cons_subset] at hm
      simp only [managerStep]
      split
      · exact keyed_reconnect h hm.1 hm.2
      · exact ⟨h, hm⟩
  | probe d c todo =>
    simp only [managerStep]
    split
    · exact ⟨h, hm.2⟩
    · exact keyed_reconnect h hm.1 hm.2
  | disconnect d old todo => exact ⟨h, by simpa using hm.1, hm.2⟩
  | connect c todo =>
    cases r
    · exact ⟨keyedRegistry_install h hm.1, hm.2⟩
    · exact ⟨h, hm.2⟩

theorem keyed_fetchData (h : KeyedRegistry devices n) (r : Awaited) {t : Fetch}
    (ht : t.Keyed devices) :
    KeyedRegistry devices (fetchData r n t).1 ∧ (fetchData r n t).2.Keyed devices := by
  have hreg : KeyedRegistry devices (fetchData r n t).1 := by
    rcases fetchData_net r n t with he | ⟨o, he⟩ <;> rw [he] <;> exact h
  refine ⟨hreg, ?_⟩
  cases t with
  | start key =>
    simp only [fetchData]
    split
    next c hc => exact h key c hc
    next => trivial
  | get key c => exact ht
  | disconnect key c => cases r <;> trivial
  | done b => trivial

structure Keyed (devices : List Device) (w : World) : Prop where
  registry : KeyedRegistry devices w.net
  manager : w.manager.InRoster devices
  fetch : ∀ t ∈ w.tasks, t.Keyed devices

theorem keyed_initial : Keyed devices (initial devices) :=
  ⟨fun _ _ h => by simp [initial] at h, List.Subset.refl _, by simp [initial]⟩

theorem keyed_step {w : World} (h : Keyed devices w) (l : Label) :
    Keyed devices (step devices w l) := by
  cases l with
  | manager r =>
    obtain ⟨hreg, hm⟩ := keyed_managerStep h.registry h.manager r
    exact ⟨hreg, hm, h.fetch⟩
  | fetcher =>
    simp only [step]
    split
    · refine ⟨h.registry, h.manager, fun t ht => ?_⟩
      rcases List.mem_append.1 ht with ht | ht
      · exact h.fetch t ht
      · obtain ⟨d, -, rfl⟩ := List.mem_map.1 ht
        trivial
    · split
      · exact ⟨h.registry, h.manager, h.fetch⟩
      · exact h
  | task i r =>
    simp only [step]
    split
    · exact h
    next t ht =>
      obtain ⟨hreg, ht'⟩ := keyed_fetchData h.registry r (h.fetch t (List.getElem?_mem ht))
      exact ⟨hreg, h.manager, fun u hu =>
        (List.mem_or_eq_of_mem_set hu).elim (h.fetch u) (· ▸ ht')⟩

theorem keyed_reachable {w : World} (h : Reachable devices w) : Keyed devices w := by
  induction h with
  | initial => exact keyed_initial
  | step l _ ih => exact keyed_step ih l

/-- Every client in `connections`, and every client a fetch task holds, was built for the
roster device of its key. -/
theorem fetch_own_device {w : World} (h : Reachable devices w) :
    (∀ k c, w.net.connections k = some c → c.device ∈ devices ∧ c.device.key = k) ∧
    ∀ t ∈ w.tasks, ∀ key c, (t = .get key c ∨ t = .disconnect key c) →
      c.device ∈ devices ∧ c.device.key = key := by
  obtain ⟨hreg, -, hfetch⟩ := keyed_reachable h
  refine ⟨hreg, fun t ht key c hkc => ?_⟩
  rcases hkc with rfl | rfl <;> exact hfetch _ ht

theorem fetch_own_device_two_devices :
    let devices : List Device := [⟨"h", 830, "u", "p"⟩, ⟨"g", 830, "u", "p"⟩]
    let w := run devices (initial devices) [.manager .raised, .manager (.returned []),
      .manager .raised, .manager (.returned []), .fetcher, .task 1 .raised, .task 0 .raised]
    Reachable devices w ∧
    (∀ k c, w.net.connections k = some c → c.device ∈ devices ∧ c.device.key = k) ∧
    ∀ t ∈ w.tasks, ∀ key c, (t = .get key c ∨ t = .disconnect key c) →
      c.device ∈ devices ∧ c.device.key = key :=
  ⟨Reachable.initial.run _, fetch_own_device (Reachable.initial.run _)⟩

end PyNetX.GetMultiple
