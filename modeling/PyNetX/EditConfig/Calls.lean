import PyNetX.EditConfig.Devices

/-! Every RPC of a `handle_device` task goes to a client whose connect succeeded. -/
namespace PyNetX.EditConfig

/-- The client a task makes its RPCs on: the one it holds past `connect_async`. -/
def Pc.rpcClient : Pc → Option Client
  | .gettingConfig c | .subscribing c | .receiving c _ => some c
  | _ => none

/-- One resumption of task `i` on `d`: at most one call, on a client it held or found cached,
or the connect of its own client, stored and called at once. -/
def CallStep (d : Device) (i : Nat) (s t : State) : Prop :=
  (t.connected = s.connected ∧ t.connections = s.connections ∧
    (t.calls = s.calls ∧ (t.tasks i).rpcClient = none ∨
      ∃ k c, (t.tasks i).rpcClient = some c ∧ t.calls = s.calls ++ [(i, k, c)] ∧
        ((s.tasks i).rpcClient = some c ∨ s.connections d.hostname = some c))) ∨
  ∃ c, s.tasks i = .connecting c ∧ t.connected = s.connected ++ [c] ∧
    t.connections = Function.update s.connections d.hostname (some c) ∧
    (t.tasks i).rpcClient = some c ∧ t.calls = s.calls ++ [(i, .getConfig, c)]

variable {roster : List Device} {s : State} {d : Device} {i : Nat} {c : Client}

theorem listen_callStep (hc : (s.tasks i).rpcClient = some c) (l : List (Nat × List Char)) :
    CallStep d i s ({ s with logged := l }.listen d i c) := by
  unfold State.listen
  split
  · exact .inl ⟨rfl, rfl, .inl ⟨rfl, by simp [Pc.rpcClient]⟩⟩
  · exact .inl ⟨rfl, rfl, .inr ⟨_, c, by simp [Pc.rpcClient], rfl, .inl hc⟩⟩

theorem handleDevice_callStep (d : Device) (i : Nat) (a : Awaited) (s : State) :
    CallStep d i s (handleDevice d i a s) := by
  unfold handleDevice
  split
  next =>
    split
    next => exact .inl ⟨rfl, rfl, .inl ⟨rfl, by simp [Pc.rpcClient]⟩⟩
    next c hc => exact .inl ⟨rfl, rfl, .inr ⟨_, c, by simp [Pc.rpcClient], rfl, .inr hc⟩⟩
  next c _ h => exact .inr ⟨c, h, rfl, rfl, by simp [Pc.rpcClient], rfl⟩
  next c _ h =>
    exact .inl ⟨rfl, rfl,
      .inr ⟨_, c, by simp [Pc.rpcClient], rfl, .inl (by simp [h, Pc.rpcClient])⟩⟩
  next c _ h => exact listen_callStep (by simp [h, Pc.rpcClient]) _
  next _ c buf h =>
    split
    next =>
      exact .inl ⟨rfl, rfl,
        .inr ⟨_, c, by simp [Pc.rpcClient], rfl, .inl (by simp [h, Pc.rpcClient])⟩⟩
    next => exact listen_callStep (by simp [h, Pc.rpcClient]) _
  next h => exact .inl ⟨rfl, rfl, .inl ⟨rfl, by simp [h, Pc.rpcClient]⟩⟩
  next => exact .inl ⟨rfl, rfl, .inl ⟨rfl, by simp [Pc.rpcClient]⟩⟩

/-- Every client in the cache, held past its connect, or called has connected. -/
structure ConnectedInv (s : State) : Prop where
  cache : ∀ h c, s.connections h = some c → c ∈ s.connected
  held : ∀ i c, (s.tasks i).rpcClient = some c → c ∈ s.connected
  calls : ∀ e ∈ s.calls, e.2.2 ∈ s.connected

theorem connectedInv_initial : ConnectedInv initial :=
  ⟨by simp [initial], by simp [initial, Pc.rpcClient], by simp [initial]⟩

theorem ConnectedInv.of_step {j : Nat} {t : State} (h : ConnectedInv s)
    (others : ∀ i, i ≠ j → t.tasks i = s.tasks i) (grow : s.connected ⊆ t.connected)
    (cache : ∀ k o, t.connections k = some o → o ∈ t.connected)
    (own : ∀ o, (t.tasks j).rpcClient = some o → o ∈ t.connected)
    (calls : ∀ e ∈ t.calls, e ∈ s.calls ∨ e.2.2 ∈ t.connected) : ConnectedInv t where
  cache := cache
  held i o ho := by
    by_cases hij : i = j
    · subst hij; exact own o ho
    · rw [others i hij] at ho; exact grow (h.held i o ho)
  calls e he := (calls e he).elim (fun he => grow (h.calls e he)) id

theorem connectedInv_step (h : ConnectedInv s) (j : Nat) (a : Awaited) :
    ConnectedInv (step roster s j a) := by
  cases hd : roster[j]? with
  | none => rwa [step_of_getElem?_eq_none hd]
  | some d =>
    have others := (step_effect hd s a).others
    simp only [step, hd] at others ⊢
    rcases handleDevice_callStep d j a s with
      ⟨hcon, hcache, ⟨hcalls, hnone⟩ | ⟨k, c, hrpc, hcalls, hfrom⟩⟩ |
        ⟨c, -, hcon, hcache, hrpc, hcalls⟩
    · -- no call, no connect
      refine h.of_step others (hcon ▸ List.Subset.refl _) (by rw [hcache, hcon]; exact h.cache)
        (by simp [hnone]) (by rw [hcalls]; exact fun e he => .inl he)
    · -- one call, on a client the task held or found in the cache
      have hc : c ∈ s.connected := hfrom.elim (h.held j c) (h.cache _ c)
      refine h.of_step others (hcon ▸ List.Subset.refl _) (by rw [hcache, hcon]; exact h.cache)
        (fun o ho => ?_) (fun e he => ?_)
      · rw [hrpc] at ho; cases ho; rwa [hcon]
      · rw [hcalls] at he
        exact (List.mem_append.1 he).imp id fun he => by
          rw [List.mem_singleton.1 he, hcon]; exact hc
    · -- the connect of the task's own client, and its first call
      refine h.of_step others (by rw [hcon]; exact List.subset_append_left _ _)
        (fun k o ho => ?_) (fun o ho => ?_) (fun e he => ?_) <;> rw [hcon]
      · rw [hcache, Function.update_apply] at ho
        split at ho
        · cases ho; simp
        · exact List.mem_append_left _ (h.cache k o ho)
      · rw [hrpc] at ho; cases ho; simp
      · rw [hcalls] at he
        exact (List.mem_append.1 he).imp id fun he => by rw [List.mem_singleton.1 he]; simp

theorem connectedInv_reachable (h : Reachable roster s) : ConnectedInv s := by
  induction h with
  | initial => exact connectedInv_initial
  | step j a _ ih => exact connectedInv_step ih j a

/-- Every RPC made so far, under any interleaving, went to a client whose connect had
succeeded, also when tasks race on one host. -/
theorem calls_on_connected (h : Reachable roster s) : ∀ e ∈ s.calls, e.2.2 ∈ s.connected :=
  (connectedInv_reachable h).calls

theorem calls_on_connected_shared_host :
    let roster : List Device := [⟨"h", 830, "u", "p"⟩, ⟨"h", 830, "u", "p"⟩]
    let s := run roster initial [(0, .raised), (1, .raised), (0, .returned []), (1, .raised),
      (0, .returned []), (1, .returned [])]
    Reachable roster s ∧ ∀ e ∈ s.calls, e.2.2 ∈ s.connected :=
  ⟨Reachable.initial.run _, calls_on_connected (Reachable.initial.run _)⟩

end PyNetX.EditConfig
