import PyNetX.EditConfig.Logged

/-! With pairwise distinct hosts, each `handle_device` task runs as if alone. -/
namespace PyNetX.EditConfig

/-- The calls task `i` made, oldest first. -/
def callsBy (i : Nat) (s : State) : List (Call × Client) :=
  (s.calls.filter (·.1 = i)).map (·.2)

/-- What task `i`, running on `d`, reads of the state and leaves in it. -/
structure View where
  pc : Pc
  cached : Option Client
  built : Nat
  calls : List (Call × Client)
  logged : List (List Char)
  deriving DecidableEq, Repr

def view (d : Device) (i : Nat) (s : State) : View :=
  ⟨s.tasks i, s.connections d.hostname, s.made.countP (·.device = d), callsBy i s,
    loggedBy i s⟩

/-- The state of a program that runs task `i` on `d` alone, where the task sees `v`. -/
def View.state (d : Device) (i : Nat) (v : View) : State :=
  ⟨fun h => if h = d.hostname then v.cached else none, List.replicate v.built ⟨d, 0⟩,
    fun _ => v.pc, v.calls.map ((i, ·)), [], v.logged.map ((i, ·))⟩

/-- Task `i` run alone on `d`: where one resumption with outcome `a` takes what it sees,
as `handleDevice` computes it on a state that holds nothing else. -/
def alone (d : Device) (i : Nat) (v : View) (a : Awaited) : View :=
  view d i (handleDevice d i a (v.state d i))

variable {roster : List Device} {s s' : State} {d : Device} {i : Nat}

theorem view_state_view (d : Device) (i : Nat) (s : State) :
    view d i ((view d i s).state d i) = view d i s := by
  simp [view, View.state, callsBy, loggedBy, List.filter_map, Function.comp_def,
    List.countP_replicate]

theorem view_setPc (s : State) (p : Pc) :
    view d i (s.setPc i p) = { view d i s with pc := p } := by
  simp [view, State.setPc, callsBy, loggedBy]

theorem view_issue (s : State) (k : Call) (c : Client) :
    view d i (s.issue i k c) = { view d i s with calls := (view d i s).calls ++ [(k, c)] } := by
  simp [view, State.issue, callsBy, loggedBy]

theorem view_build (s : State) :
    view d i { s with made := s.made ++ [newClient s.made d] } =
      { view d i s with built := (view d i s).built + 1 } := by
  simp [view, List.countP_append, callsBy, loggedBy]

theorem view_connect (s : State) (c : Client) :
    view d i { s with
        connections := Function.update s.connections d.hostname (some c),
        connected := s.connected ++ [c] } = { view d i s with cached := some c } := by
  simp [view, callsBy, loggedBy]

theorem view_log (s : State) (f : List Char) :
    view d i { s with logged := s.logged ++ [(i, f)] } =
      { view d i s with logged := (view d i s).logged ++ [f] } := by
  simp [view, callsBy, loggedBy]

theorem view_listen (s : State) (c : Client) :
    view d i (s.listen d i c) = match (view d i s).cached with
      | none => { view d i s with pc := .finished }
      | some _ => { view d i s with
          calls := (view d i s).calls ++ [(.receiveNotification, c)], pc := .receiving c [] } := by
  unfold State.listen
  rw [show (view d i s).cached = s.connections d.hostname from rfl]
  split
  next h => simp [view_setPc, h]
  next h => simp [view_setPc, view_issue, h]

/-- What task `i` does in one resumption depends on the state only through its view. -/
theorem view_handleDevice_congr (h : view d i s = view d i s') (a : Awaited) :
    view d i (handleDevice d i a s) = view d i (handleDevice d i a s') := by
  have hpc : s.tasks i = s'.tasks i := congrArg View.pc h
  have hc : s.connections d.hostname = s'.connections d.hostname := congrArg View.cached h
  have hn : newClient s.made d = newClient s'.made d :=
    show (⟨d, (view d i s).built⟩ : Client) = ⟨d, (view d i s').built⟩ by rw [h]
  unfold handleDevice
  rw [hpc]
  split
  next =>
    rw [hc]
    split
    · simp only [view_setPc, view_build]
      rw [hn, h]
    · simp only [view_setPc, view_issue, h]
  next => simp only [view_setPc, view_issue, view_connect, h]
  next => simp only [view_setPc, view_issue, h]
  next => simp only [view_listen, h]
  next =>
    split
    · simp only [view_setPc, view_issue, h]
    · simp only [view_listen, view_log, h]
  next => exact h
  next => simp only [view_setPc, h]

theorem view_handleDevice (a : Awaited) (s : State) :
    view d i (handleDevice d i a s) = alone d i (view d i s) a :=
  view_handleDevice_congr (view_state_view d i s).symm a

theorem handleDevice_made (d : Device) (i : Nat) (a : Awaited) (s : State) :
    (handleDevice d i a s).made = s.made ∨
      (handleDevice d i a s).made = s.made ++ [newClient s.made d] := by
  have hl : ∀ (t : State) c, (t.listen d i c).made = t.made := by
    intro t c; unfold State.listen; split <;> rfl
  unfold handleDevice
  split
  next => split <;> simp [State.setPc, State.issue]
  next => simp [State.setPc, State.issue]
  next => simp [State.setPc, State.issue]
  next => simp [hl]
  next => split <;> simp [State.setPc, State.issue, hl]
  next => simp
  next => simp [State.setPc]

theorem view_handleDevice_of_ne {d' : Device} {j : Nat} (hji : j ≠ i)
    (hh : d'.hostname ≠ d.hostname) (a : Awaited) (s : State) :
    view d i (handleDevice d' j a s) = view d i s := by
  have e := handleDevice_effect d' j a s
  have hd : d' ≠ d := fun h => hh (h ▸ rfl)
  simp only [view, View.mk.injEq]
  refine ⟨e.others i (Ne.symm hji), ?_, ?_, ?_, ?_⟩
  · rcases e.cache with ⟨hc, -⟩ | ⟨c, -, -, hc, -⟩ <;>
      simp [hc, Function.update_noteq (Ne.symm hh)]
  · rcases handleDevice_made d' j a s with hm | hm <;> simp [hm, List.countP_append, hd]
  · rcases e.calls with hc | ⟨k, c, -, hc⟩ <;> simp [callsBy, hc, hji]
  · rcases handleDevice_logged d' j a s with hl | ⟨f, hl⟩ <;> simp [loggedBy, hl, hji]

theorem hostname_ne_of_nodup (hn : (roster.map Device.hostname).Nodup) {j : Nat} {d' : Device}
    (hd : roster[i]? = some d) (hj : roster[j]? = some d') (hji : j ≠ i) :
    d'.hostname ≠ d.hostname := by
  intro hh
  have hlt : j < (roster.map Device.hostname).length := by
    simpa using (List.getElem?_eq_some_iff.1 hj).1
  exact hji (List.getElem?_inj hlt hn (by simp [List.getElem?_map, hj, hd, hh]))

/-- With pairwise distinct hosts, from any state and under any interleaving, each task's view
ends where the task alone takes it over the results of its own awaits. -/
theorem task_runs_alone (hn : (roster.map Device.hostname).Nodup) (hd : roster[i]? = some d)
    (s : State) (labels : List (Nat × Awaited)) :
    view d i (run roster s labels) = (resultsFor i labels).foldl (alone d i) (view d i s) := by
  induction labels generalizing s with
  | nil => rfl
  | cons l labels ih =>
    obtain ⟨j, a⟩ := l
    rw [run, ih, resultsFor_cons]
    by_cases hji : j = i
    · subst hji
      simp only [if_true, List.foldl_cons, step, hd]
      rw [view_handleDevice]
    · rw [if_neg hji]
      cases hj : roster[j]? with
      | none => rw [step_of_getElem?_eq_none hj]
      | some d' =>
        simp only [step, hj]
        rw [view_handleDevice_of_ne hji (hostname_ne_of_nodup hn hd hj hji)]

theorem task_runs_alone_two_hosts :
    let roster : List Device := [⟨"a", 830, "u", "p"⟩, ⟨"b", 830, "u", "p"⟩]
    let labels : List (Nat × Awaited) := [(0, .raised), (1, .raised), (1, .returned []),
      (0, .returned []), (1, .raised), (0, .returned []), (0, .returned "]]>]]>".toList)]
    ((roster.map Device.hostname).Nodup ∧ roster[0]? = some ⟨"a", 830, "u", "p"⟩) ∧
      view ⟨"a", 830, "u", "p"⟩ 0 (run roster initial labels) =
        (resultsFor 0 labels).foldl (alone ⟨"a", 830, "u", "p"⟩ 0)
          (view ⟨"a", 830, "u", "p"⟩ 0 initial) :=
  ⟨⟨by decide, rfl⟩, task_runs_alone (by decide) rfl _ _⟩

end PyNetX.EditConfig
