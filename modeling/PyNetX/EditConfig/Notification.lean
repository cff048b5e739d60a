import PyNetX.Basic

/-! The notification loop of `handle_device`: chunks into frames at `]]>]]>`. -/
namespace PyNetX.Notification

/-- The end-of-message marker the loop looks for. -/
def marker : List Char := "]]>]]>".toList

/-- What `receive_notification_async` returns when nothing has arrived. -/
def sentinel : List Char := "NO NOTIFICATION!".toList

theorem not_marker_infix_sentinel : ¬ marker <:+: sentinel := by decide

/-- One pass after `receive_notification_async`: the next `full_notif` and the frame logged,
if any. A marker chunk or an exception closes the frame. -/
def receive (fullNotif : List Char) : Awaited → List Char × Option (List Char)
  | .returned notif =>
    if notif = sentinel then (fullNotif, none)
    else if marker <:+: notif then ([], some (fullNotif ++ splitHead marker notif))
    else (fullNotif ++ notif, none)
  | .raised => ([], some fullNotif)

/-- The frames the loop logs over a run of receive results, from `fullNotif` on. -/
def frames (fullNotif : List Char) : List Awaited → List (List Char)
  | [] => []
  | r :: rs => (receive fullNotif r).2.toList ++ frames (receive fullNotif r).1 rs

/-- The frame under construction after a run of receive results. -/
def pending (fullNotif : List Char) : List Awaited → List Char
  | [] => fullNotif
  | r :: rs => pending (receive fullNotif r).1 rs

/-- What a receive result adds to the stream: a returned chunk other than the
sentinel. -/
def chunkText : Awaited → List Char
  | .returned notif => if notif = sentinel then [] else notif
  | .raised => []

/-- A result that leaves the frame open: the sentinel, or a chunk without the marker. -/
def Quiet : Awaited → Prop
  | .returned notif => ¬ marker <:+: notif
  | .raised => False

/-- A result that closes the frame: a chunk holding the marker, or an exception. -/
def Ends : Awaited → Prop
  | .returned notif => marker <:+: notif
  | .raised => True

instance : DecidablePred Quiet
  | .returned notif => inferInstanceAs (Decidable (¬ marker <:+: notif))
  | .raised => inferInstanceAs (Decidable False)

instance : DecidablePred Ends
  | .returned notif => inferInstanceAs (Decidable (marker <:+: notif))
  | .raised => inferInstanceAs (Decidable True)

/-- What a closing result adds to the frame it closes. -/
def endText : Awaited → List Char
  | .returned notif => splitHead marker notif
  | .raised => []

variable {b : List Char} {r : Awaited}

theorem receive_quiet (h : Quiet r) : receive b r = (b ++ chunkText r, none) := by
  cases r with
  | returned notif =>
    simp only [Quiet] at h
    by_cases hs : notif = sentinel <;> simp [receive, chunkText, hs, h]
  | raised => exact h.elim

theorem receive_ends (h : Ends r) : receive b r = ([], some (b ++ endText r)) := by
  cases r with
  | returned notif =>
    have hs : notif ≠ sentinel := by
      rintro rfl
      exact not_marker_infix_sentinel h
    simp only [Ends] at h
    simp [receive, endText, hs, h]
  | raised => simp [receive, endText]

theorem receive_fst_eq_nil (h : (receive b r).2 ≠ none) : (receive b r).1 = [] := by
  cases r with
  | returned notif =>
    simp only [receive] at h ⊢
    split_ifs at h ⊢ <;> simp_all
  | raised => rfl

theorem frames_ends (h : Ends r) : frames b [r] = [b ++ endText r] := by
  simp [frames, receive_ends h]

theorem pending_ends (h : Ends r) : pending b [r] = [] := by
  simp [pending, receive_ends h]

theorem frames_append (b : List Char) (xs ys : List Awaited) :
    frames b (xs ++ ys) = frames b xs ++ frames (pending b xs) ys := by
  induction xs generalizing b with
  | nil => rfl
  | cons r xs ih => simp [frames, pending, ih]

theorem frames_quiet (b : List Char) (qs : List Awaited) (h : ∀ r ∈ qs, Quiet r) :
    frames b qs = [] := by
  induction qs generalizing b with
  | nil => rfl
  | cons r qs ih =>
    simp only [List.forall_mem_cons] at h
    simp [frames, receive_quiet h.1, ih _ h.2]

theorem pending_quiet (b : List Char) (qs : List Awaited) (h : ∀ r ∈ qs, Quiet r) :
    pending b qs = b ++ (qs.map chunkText).flatten := by
  induction qs generalizing b with
  | nil => simp [pending]
  | cons r qs ih =>
    simp only [List.forall_mem_cons] at h
    simp [pending, receive_quiet h.1, ih _ h.2]

/-- A run of results is blocks of quiet results closed by one result, then quiet results;
each block gives one frame. -/
theorem frames_blocks (blocks : List (List Awaited × Awaited)) (rest : List Awaited)
    (hq : ∀ blk ∈ blocks, ∀ r ∈ blk.1, Quiet r) (he : ∀ blk ∈ blocks, Ends blk.2)
    (hr : ∀ r ∈ rest, Quiet r) :
    frames [] ((blocks.map fun blk => blk.1 ++ [blk.2]).flatten ++ rest) =
      blocks.map fun blk => (blk.1.map chunkText).flatten ++ endText blk.2 := by
  induction blocks with
  | nil => simpa using frames_quiet [] rest hr
  | cons blk blocks ih =>
    simp only [List.forall_mem_cons] at hq he
    simp only [List.map_cons, List.flatten_cons, List.append_assoc]
    rw [frames_append, frames_append, frames_quiet _ _ hq.1, pending_quiet _ _ hq.1,
      frames_ends he.1, pending_ends he.1, ih hq.2 he.2]
    rfl

/-- Without receive failures, frames end at the chunks holding the marker; the rest of such
a chunk is dropped, and a marker split across chunks ends no frame. -/
theorem frames_end_at_marker_chunks (blocks : List (List Awaited × List Char))
    (rest : List Awaited) (hq : ∀ blk ∈ blocks, ∀ r ∈ blk.1, Quiet r)
    (ht : ∀ blk ∈ blocks, marker <:+: blk.2) (hr : ∀ r ∈ rest, Quiet r) :
    frames [] ((blocks.map fun blk => blk.1 ++ [.returned blk.2]).flatten ++ rest) =
      blocks.map fun blk => (blk.1.map chunkText).flatten ++ splitHead marker blk.2 := by
  have h := frames_blocks (blocks.map fun blk => (blk.1, .returned blk.2)) rest
    (fun _ hb => by obtain ⟨blk, hblk, rfl⟩ := List.mem_map.1 hb; exact hq blk hblk)
    (fun _ hb => by obtain ⟨blk, hblk, rfl⟩ := List.mem_map.1 hb; exact ht blk hblk) hr
  simpa [Function.comp_def, endText] using h

theorem frames_end_at_marker_chunks_one_block :
    let blocks := [([.returned "<a>".toList, .returned sentinel, .returned "1</a>".toList],
      "]]>]]><b/>".toList)]
    ((∀ blk ∈ blocks, ∀ r ∈ blk.1, Quiet r) ∧ (∀ blk ∈ blocks, marker <:+: blk.2) ∧
      ∀ r ∈ ([] : List Awaited), Quiet r) ∧
    frames [] ((blocks.map fun blk => blk.1 ++ [.returned blk.2]).flatten ++ []) =
      ["<a>1</a>".toList] :=
  ⟨by decide, frames_end_at_marker_chunks _ [] (by decide) (by decide) (by decide)⟩

/-- The frames are not the pieces of the data split on the marker. -/
theorem frames_not_split_pieces :
    ¬ ∀ rs : List Awaited, (∀ r ∈ rs, r ≠ .raised) →
      frames [] rs = (pySplit marker (rs.map chunkText).flatten).dropLast := by
  intro h
  have two := h [.returned "<a/>]]>]]><b/>]]>]]>".toList] (by decide)
  have split := h [.returned "<a/>]]>".toList, .returned "]]>".toList] (by decide)
  revert two split
  decide

@[simp] theorem chunkText_append_marker (x : List Char) :
    chunkText (.returned (x ++ marker)) = x ++ marker := by
  have h : x ++ marker ≠ sentinel := fun h =>
    not_marker_infix_sentinel (h ▸ (List.suffix_append x marker).isInfix)
  simp [chunkText, h]

theorem quiet_of_chunkText (hr : r ≠ .raised) (h : ¬ marker <:+: chunkText r) : Quiet r := by
  cases r with
  | returned notif =>
    by_cases hs : notif = sentinel
    · subst hs
      exact not_marker_infix_sentinel
    · simpa [Quiet, chunkText, hs] using h
  | raised => exact absurd rfl hr

theorem aligned_block {qs : List Awaited} {b : List Char} (hq : ∀ r ∈ qs, r ≠ .raised)
    (hb : ¬ marker <:+: ((qs.map chunkText).flatten ++ b ++ marker).dropLast) :
    (∀ r ∈ qs, Quiet r) ∧ splitHead marker (b ++ marker) = b := by
  have hm : marker ≠ [] := by decide
  rw [List.append_assoc, List.dropLast_append_of_ne_nil _ (by simp [hm])] at hb
  refine ⟨fun r hr => quiet_of_chunkText (hq r hr) fun h => hb ?_, ?_⟩
  · exact h.trans ((List.infix_of_mem_flatten (List.mem_map_of_mem chunkText hr)).trans
      (List.prefix_append _ _).isInfix)
  · simpa using splitHead_append_sep hm
      (fun h => hb (h.trans (List.suffix_append _ _).isInfix)) []

/-- When each notification's last chunk ends with the only marker in it, the frames are the
pieces of the data split on the marker. -/
theorem frames_eq_split_pieces_of_aligned (blocks : List (List Awaited × List Char))
    (rest : List Awaited) (hq : ∀ blk ∈ blocks, ∀ r ∈ blk.1, r ≠ .raised)
    (hb : ∀ blk ∈ blocks,
      ¬ marker <:+: ((blk.1.map chunkText).flatten ++ blk.2 ++ marker).dropLast)
    (hr : ∀ r ∈ rest, r ≠ .raised) (ht : ¬ marker <:+: (rest.map chunkText).flatten) :
    frames [] ((blocks.map fun blk => blk.1 ++ [.returned (blk.2 ++ marker)]).flatten ++ rest) =
      (pySplit marker (((blocks.map fun blk => blk.1 ++ [.returned (blk.2 ++ marker)]).flatten ++
        rest).map chunkText).flatten).dropLast := by
  have hm : marker ≠ [] := by decide
  have hblk := fun blk (h : blk ∈ blocks) => aligned_block (hq blk h) (hb blk h)
  have hf := frames_blocks (blocks.map fun blk => (blk.1, .returned (blk.2 ++ marker))) rest
    (fun _ h => by obtain ⟨blk, hmem, rfl⟩ := List.mem_map.1 h; exact (hblk blk hmem).1)
    (fun _ h => by obtain ⟨blk, -, rfl⟩ := List.mem_map.1 h; exact (List.suffix_append _ _).isInfix)
    (fun r h => quiet_of_chunkText (hr r h) fun hi =>
      ht (hi.trans (List.infix_of_mem_flatten (List.mem_map_of_mem chunkText h))))
  have hs := pySplit_join hm (blocks.map fun blk => (blk.1.map chunkText).flatten ++ blk.2) _
    (fun _ h => by obtain ⟨blk, hmem, rfl⟩ := List.mem_map.1 h; simpa using hb blk hmem) ht
  simp only [List.map_append, List.flatten_append, List.map_flatten, List.flatten_flatten,
    List.map_map, Function.comp_def, List.map_cons, List.map_nil, List.flatten_cons,
    List.flatten_nil, List.append_nil, chunkText_append_marker, List.append_assoc] at hf hs ⊢
  rw [hf, hs, List.dropLast_concat]
  exact List.map_congr_left fun blk h => by simp [endText, (hblk blk h).2]

theorem frames_eq_split_pieces_of_aligned_two_blocks :
    let blocks := [([.returned "<a>".toList, .returned sentinel], "1</a>".toList),
      ([], "<b/>".toList)]
    let rest := [.returned "<c".toList]
    ((∀ blk ∈ blocks, ∀ r ∈ blk.1, r ≠ .raised) ∧
      (∀ blk ∈ blocks,
        ¬ marker <:+: ((blk.1.map chunkText).flatten ++ blk.2 ++ marker).dropLast) ∧
      (∀ r ∈ rest, r ≠ .raised) ∧ ¬ marker <:+: (rest.map chunkText).flatten) ∧
    frames [] ((blocks.map fun blk => blk.1 ++ [.returned (blk.2 ++ marker)]).flatten ++ rest) =
      (pySplit marker (((blocks.map fun blk => blk.1 ++ [.returned (blk.2 ++ marker)]).flatten ++
        rest).map chunkText).flatten).dropLast :=
  ⟨by decide, frames_eq_split_pieces_of_aligned _ _ (by decide) (by decide) (by decide)
    (by decide)⟩

/-- A receive failure closes the frame: the loop logs what it had and starts the next
frame empty, so no later frame carries text from before the failure. -/
theorem frames_raised (b : List Char) (xs ys : List Awaited) :
    frames b (xs ++ .raised :: ys) = frames b xs ++ pending b xs :: frames [] ys := by
  simp [frames_append, frames, receive]

/-- A failure after one buffered chunk logs that chunk as a Notification. -/
theorem frames_partial_at_failure :
    frames [] [.returned "<a>".toList] = [] ∧
      frames [] [.returned "<a>".toList, .raised] = ["<a>".toList] := by
  decide

end PyNetX.Notification
