import Mathlib.Data.List.Infix

/-! The values the example scripts hand to `NetconfClient` and get back from it. -/
namespace PyNetX

/-- One roster entry: the arguments `NetconfClient(hostname, port, username, password)`
is constructed with. -/
structure Device where
  hostname : String
  port : Nat
  username : String
  password : String
  deriving DecidableEq, Repr

/-- The `(hostname, port)` pair that identifies a device. -/
def Device.key (d : Device) : String × Nat := (d.hostname, d.port)

/-- A `NetconfClient` object. Objects are told apart by the device they were built
for and by how many clients had been built for that device before them. -/
structure Client where
  device : Device
  serial : Nat
  deriving DecidableEq, Repr

/-- The client that `NetconfClient(...)` builds for `d` when `made` are the clients
built so far. -/
def newClient (made : List Client) (d : Device) : Client :=
  ⟨d, made.countP (·.device = d)⟩

@[simp] theorem newClient_device (made : List Client) (d : Device) :
    (newClient made d).device = d := rfl

theorem newClient_append_of_ne {made : List Client} {c : Client} {d : Device}
    (h : c.device ≠ d) : newClient (made ++ [c]) d = newClient made d := by
  simp [newClient, List.countP_append, h]

theorem newClient_not_mem {made : List Client}
    (h : ∀ c ∈ made, c.serial < made.countP (·.device = c.device)) (d : Device) :
    newClient made d ∉ made := by
  intro hm
  have := h _ hm
  simp [newClient] at this

theorem serials_append_newClient {made : List Client}
    (h : ∀ c ∈ made, c.serial < made.countP (·.device = c.device)) (d : Device) :
    ∀ c ∈ made ++ [newClient made d],
      c.serial < (made ++ [newClient made d]).countP (·.device = c.device) := by
  intro c hc
  simp only [List.countP_append, List.mem_append, List.mem_singleton] at hc ⊢
  rcases hc with hc | rfl
  · exact Nat.lt_of_lt_of_le (h c hc) (Nat.le_add_right _ _)
  · simp [newClient]

/-- The state of a `NetconfClient` session. -/
inductive Session
  | unconnected
  | live
  | closed
  deriving DecidableEq, Repr

/-- What an `await` on a `NetconfClient` coroutine gave back: the returned string, or
an exception. -/
inductive Awaited
  | returned (value : List Char)
  | raised
  deriving DecidableEq, Repr

/-- The results a run of interleaved tasks, each step labelled with the task's index and
what its await gave, delivers to task `i`, in order. -/
def resultsFor (i : Nat) (labels : List (Nat × Awaited)) : List Awaited :=
  labels.filterMap fun l => if l.1 = i then some l.2 else none

theorem resultsFor_cons (i j : Nat) (a : Awaited) (labels : List (Nat × Awaited)) :
    resultsFor i ((j, a) :: labels) =
      if j = i then a :: resultsFor i labels else resultsFor i labels := by
  by_cases h : j = i <;> simp [resultsFor, h]

/-- `s.split(sep)[0]`: the text of `s` before the first `sep`, or all of `s`. -/
def splitHead (sep : List Char) : List Char → List Char
  | [] => []
  | c :: s => if sep <+: c :: s then [] else c :: splitHead sep s

/-- The scan behind `pySplit`: `skip` characters of a matched separator remain to be
passed over, and `cur` is the current piece, reversed. -/
def splitScan (sep : List Char) : Nat → List Char → List Char → List (List Char)
  | _, cur, [] => [cur.reverse]
  | skip + 1, cur, _ :: s => splitScan sep skip cur s
  | 0, cur, c :: s =>
    if sep <+: c :: s then cur.reverse :: splitScan sep (sep.length - 1) [] s
    else splitScan sep 0 (c :: cur) s

/-- Python's `s.split(sep)` for a non-empty `sep`: the pieces between the occurrences
of `sep`, found from the left. -/
def pySplit (sep s : List Char) : List (List Char) := splitScan sep 0 [] s

example : pySplit "]]>".toList "a]]>b]]>".toList = ["a".toList, "b".toList, []] := by decide

variable {sep : List Char}

theorem splitScan_skip (cur xs s : List Char) :
    splitScan sep xs.length cur (xs ++ s) = splitScan sep 0 cur s := by
  induction xs with
  | nil => rfl
  | cons x xs ih => simpa [splitScan] using ih

theorem splitScan_head (cur s : List Char) :
    (splitScan sep 0 cur s).head? = some (cur.reverse ++ splitHead sep s) := by
  induction s generalizing cur with
  | nil => simp [splitScan, splitHead]
  | cons c s ih => by_cases h : sep <+: c :: s <;> simp [splitScan, splitHead, h, ih]

theorem splitScan_of_not_infix {s : List Char} (cur : List Char) (h : ¬ sep <:+: s) :
    splitScan sep 0 cur s = [cur.reverse ++ s] := by
  induction s generalizing cur with
  | nil => simp [splitScan]
  | cons c s ih =>
    have hp : ¬ sep <+: c :: s := fun hp => h hp.isInfix
    simp [splitScan, hp, ih _ fun hi => h (List.infix_cons hi)]

theorem splitScan_append_sep (hs : sep ≠ []) {x : List Char}
    (hx : ¬ sep <:+: (x ++ sep).dropLast) (cur y : List Char) :
    splitScan sep 0 cur (x ++ (sep ++ y)) = (cur.reverse ++ x) :: splitScan sep 0 [] y := by
  induction x generalizing cur with
  | nil =>
    obtain ⟨a, sep, rfl⟩ := List.exists_cons_of_ne_nil hs
    simp [splitScan, splitScan_skip]
  | cons a x ih =>
    have hne : x ++ sep ≠ [] := by simp [hs]
    rw [List.cons_append, List.dropLast_cons_of_ne_nil hne] at hx
    have hpre : a :: (x ++ sep).dropLast <+: a :: (x ++ (sep ++ y)) := by
      rw [List.prefix_cons_inj, ← List.append_assoc]
      exact (List.dropLast_prefix _).trans (List.prefix_append _ _)
    have hp : ¬ sep <+: a :: (x ++ (sep ++ y)) := fun hp =>
      hx (List.prefix_of_prefix_length_le hp hpre (by simp; omega)).isInfix
    simp [splitScan, hp, ih (fun hi => hx (List.infix_cons hi))]

/-- Joining pieces with `sep` and splitting again gives the pieces back, when no piece
holds `sep`, not even across its join with the next `sep`. -/
theorem pySplit_join (hs : sep ≠ []) (xs : List (List Char)) (y : List Char)
    (hx : ∀ x ∈ xs, ¬ sep <:+: (x ++ sep).dropLast) (hy : ¬ sep <:+: y) :
    pySplit sep ((xs.map (· ++ sep)).flatten ++ y) = xs ++ [y] := by
  induction xs with
  | nil => simpa [pySplit] using splitScan_of_not_infix [] hy
  | cons x xs ih =>
    simp only [List.forall_mem_cons] at hx
    simpa [pySplit, splitScan_append_sep hs hx.1] using ih hx.2

theorem splitHead_append_sep (hs : sep ≠ []) {x : List Char}
    (hx : ¬ sep <:+: (x ++ sep).dropLast) (y : List Char) :
    splitHead sep (x ++ (sep ++ y)) = x := by
  have h := @splitScan_head sep [] (x ++ (sep ++ y))
  rw [splitScan_append_sep hs hx] at h
  simpa [eq_comm] using h

end PyNetX
