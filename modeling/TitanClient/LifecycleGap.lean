import TitanClient.LifecycleMail

/-!
# Between the response and the registration

A start registers its stream some time after the loop has handed it the response. In between the
stream has an id but no entry.

## Main results

* `State.gapId` — the id under which a start is about to register its stream
* `gapId_next` — it comes with the response to the request of the start, and from nowhere else
-/

namespace TitanClient

namespace Lifecycle

/-! ## The id in the gap -/

/-- The stream id in an answer. -/
def Reply.stream : Reply → Option ℕ
  | .ok stream => stream
  | .failed => none

/-- The id under which the start of stream `i` is about to register it. -/
def State.gapId (s : State) (i : ℕ) : Option ℕ :=
  match (s.streams i).start with
  | .registering id => some id
  | .awaiting ticket => (s.answers ticket).bind fun a => a.reply.stream
  | _ => none

theorem gapId_awaiting {s : State} {i ticket id : ℕ} (h : (s.streams i).start = .awaiting ticket) :
    s.gapId i = some id ↔ ∃ seen, s.answers ticket = some ⟨.ok (some id), seen⟩ := by
  rw [State.gapId, h]
  change (s.answers ticket).bind _ = some id ↔ _
  rw [Option.bind_eq_some_iff]
  constructor
  · rintro ⟨⟨reply, seen⟩, hans, hid⟩
    cases reply with
    | ok stream =>
      cases hid
      exact ⟨seen, hans⟩
    | failed => cases hid
  · rintro ⟨seen, hans⟩
    exact ⟨_, hans, rfl⟩

/-- Only a start that awaits its answer, or has it, is in the gap. -/
theorem start_of_gapId {s : State} {i id : ℕ} (h : s.gapId i = some id) :
    (∃ ticket, (s.streams i).start = .awaiting ticket) ∨
      (s.streams i).start = .registering id := by
  rw [State.gapId] at h
  cases hs : (s.streams i).start with
  | awaiting ticket => exact Or.inl ⟨ticket, rfl⟩
  | registering id' =>
    rw [hs] at h
    cases h
    exact Or.inr rfl
  | _ =>
    rw [hs] at h
    cases h

/-- An answer with a stream id was there before, or the response has just been read. -/
theorem answer_next {s : State} {a : Action} (ha : Enabled s a) {ticket id seen : ℕ}
    (h : (next s a).answers ticket = some ⟨.ok (some id), seen⟩) :
    s.answers ticket = some ⟨.ok (some id), seen⟩ ∨
      ∃ r, a = .read r (.response ticket (some id)) ∧ ticket ∈ s.pending ∧
        seen = s.consumed.length + 1 := by
  have hc := mailChange ha
  change (next s a).mail.answers ticket = _ at h
  generalize (next s a).mail = m at h hc
  have hfailed : ∀ {l : List ℕ} {n : ℕ},
      (if ticket ∈ l then some ⟨.failed, n⟩ else s.answers ticket) = some ⟨.ok (some id), seen⟩ →
        s.answers ticket = some ⟨.ok (some id), seen⟩ := by
    intro l n hl
    split at hl
    · cases hl
    · exact hl
  cases hc with
  | unsent => exact Or.inl (hfailed h)
  | left => exact Or.inl (hfailed h)
  | cleaned => exact Or.inl (hfailed h)
  | @completed r f t reply hloop hhead hm hpending =>
    by_cases ht : ticket = t
    · subst ht
      have hself : Function.update s.answers ticket (some ⟨reply, (s.consumed ++ [f]).length⟩)
          ticket = some ⟨.ok (some id), seen⟩ := h
      rw [Function.update_self, Option.some.injEq, Answer.mk.injEq] at hself
      rw [hself.1] at hm
      right
      cases f with
      | response t stream =>
        cases hm
        exact ⟨r, rfl, hpending, by rw [← hself.2, List.length_append, List.length_singleton]⟩
      | _ => cases hm
    · have hother : Function.update s.answers t (some ⟨reply, (s.consumed ++ [f]).length⟩)
          ticket = some ⟨.ok (some id), seen⟩ := h
      rw [Function.update_of_ne ht] at hother
      exact Or.inl hother
  | _ => exact Or.inl h

/-- A start is in the gap because it was before, or because the response has just been read. -/
theorem gapId_next {s : State} (hp : Posted s) {a : Action} (ha : Enabled s a) {i id : ℕ}
    (h : (next s a).gapId i = some id) :
    s.gapId i = some id ∨ ∃ r ticket, a = .read r (.response ticket (some id)) ∧
      (s.streams i).start = .awaiting ticket ∧ s.answers ticket = none := by
  have hold : ((next s a).streams i).start = (s.streams i).start →
      s.gapId i = some id ∨ ∃ r ticket, a = .read r (.response ticket (some id)) ∧
        (s.streams i).start = .awaiting ticket ∧ s.answers ticket = none := by
    intro hstart
    cases hs : (s.streams i).start with
    | awaiting ticket =>
      obtain ⟨seen, hans⟩ := (gapId_awaiting (hstart.trans hs)).mp h
      rcases answer_next ha hans with hans | ⟨r, hr, hpending, -⟩
      · exact Or.inl ((gapId_awaiting hs).mpr ⟨seen, hans⟩)
      · exact Or.inr ⟨r, ticket, hr, rfl, hp.unanswered ticket (List.mem_append_right _ hpending)⟩
    | registering id' =>
      left
      rw [State.gapId, hstart, hs] at h
      rw [State.gapId, hs]
      exact h
    | _ =>
      rw [State.gapId, hstart, hs] at h
      cases h
  have hnone : ∀ {p : Start}, ((next s a).streams i).start = p →
      (∀ t, p ≠ .awaiting t) → (∀ id, p ≠ .registering id) → False := by
    intro p hstart hawait hreg
    rcases start_of_gapId h with ⟨ticket, hs⟩ | hs
    · exact hawait ticket (hstart.symm.trans hs)
    · exact hreg id (hstart.symm.trans hs)
  have hc := change ha i
  generalize hv : (next s a).streams i = v at hc
  have hstart : ((next s a).streams i).start = v.start := by rw [hv]
  cases hc with
  | begun => exact (hnone hstart nofun nofun).elim
  | requested hreq =>
    obtain ⟨seen, hans⟩ := (gapId_awaiting hstart).mp h
    rcases answer_next ha hans with hans | ⟨r, hr, -⟩
    · have hfresh : s.answers s.nextTicket = none := hp.freshAnswers _ (le_refl _)
      cases hfresh.symm.trans hans
    · cases hr
  | startRefused => exact (hnone hstart nofun nofun).elim
  | answered hawait hans =>
    left
    rw [State.gapId, hstart] at h
    cases h
    exact (gapId_awaiting hawait).mpr ⟨_, hans⟩
  | denied => exact (hnone hstart nofun nofun).elim
  | registered => exact (hnone hstart nofun nofun).elim
  | failed => exact (hnone hstart nofun nofun).elim
  | _ => exact hold hstart

theorem gapId_lt {s : State} (hw : Wired s) {i id : ℕ} (h : s.gapId i = some id) :
    i < s.streamCount := by
  by_contra hle
  rw [State.gapId, hw.unused i (Nat.not_lt.mp hle)] at h
  cases h

end Lifecycle

end TitanClient
