import SvmLight.Proofs.Reader.Malformed
import SvmLight.Proofs.Reader.Progress

/-!
# Records one by one

A reader that collects records meets what single requests for records meet, one after another. So
all operations that read several records come down to what these requests come to.

* `Reader.GetsTo` — the requests that collecting has passed, and why it has gone no further.
* `Reader.collect_getsTo` — the records that are collected are those that the next requests come to,
  and the reader stands behind these requests.
-/

namespace SvmLight

namespace Reader

variable {σ : Type} [LineSource σ] {r r' : Reader σ}

/-- Why no more than `n` records are collected, and where the reader stands then. -/
inductive StopsAt (r : Reader σ) (room n : Nat) : Stop → Reader σ → Prop where
  /-- behind the last record -/
  | full {r' : Reader σ} (eq : n = room) (abreast : r'.Abreast (r.after n)) :
      StopsAt r room n .full r'
  /-- behind the last record, and no line is left -/
  | ended {r' : Reader σ} (lt : n < room) (event_eq : r.event n = .ok none)
      (abreast : r'.Abreast (r.after n)) : StopsAt r room n .ended r'
  /-- behind the line that failed, which comes behind the last record -/
  | failed {r' : Reader σ} {e : Error} (lt : n < room) (event_ne : r.event n ≠ .ok none)
      (outcome_eq : r.outcome n = .error e) (abreast : r'.Abreast (r.after (n + 1))) :
      StopsAt r room n (.failed e) r'
  /-- at the line behind the last record -/
  | oversize {r' : Reader σ} (lt : n < room) (outcome_eq : r.outcome n = .oversize) :
      StopsAt r room n .oversize r'

/-- Collecting has got somewhere. -/
structure GetsTo (r : Reader σ) (room : Nat) (c : Collected (Reader σ)) : Prop where
  /-- the first requests come to the records -/
  records : (r.outcomes c.records.length).map Outcome.record? = c.records.map some
  /-- what comes next is why there are no more -/
  stops : r.StopsAt room c.records.length c.stop c.reader

/-- So each of these requests comes to a record. -/
theorem GetsTo.exists_record {room : Nat} {c : Collected (Reader σ)} (h : r.GetsTo room c) {k : Nat}
    (hk : k < c.records.length) : ∃ record place, r.outcome k = .ok (record, place) := by
  have hmem : (r.outcome k).record? ∈ c.records.map some := by
    rw [← h.records]
    exact List.mem_map_of_mem (List.mem_map_of_mem (List.mem_range.2 hk))
  obtain ⟨record, -, hrecord⟩ := List.mem_map.1 hmem
  exact ⟨record, Outcome.exists_of_record? hrecord.symm⟩

/-- The optional reading finds the end, or it is a request for a record. -/
theorem next?_cases (r : Reader σ) :
    (r.next?.1 = none ∧ r.event 0 = .ok none ∧ r.next?.2.Abreast r) ∨
      (r.next?.1 = some (Prod.fst <$> r.outcome 0) ∧ r.event 0 ≠ .ok none ∧
        r.next?.2.Abreast (r.after 1)) := by
  by_cases hend : r.event 0 = .ok none
  · obtain ⟨hnext, hstands⟩ := (stands_self r).next?_end hend
    exact .inl ⟨hnext, hend, hstands.abreast (stands_self r)⟩
  · obtain ⟨hnext, hstands⟩ := (stands_self r).next?_event hend
    obtain ⟨hread, hstands'⟩ := (stands_self r).readPlaced
    refine .inr ⟨?_, hend, hstands.abreast hstands'⟩
    rw [hnext, ← hread]
    rfl

/-- One request more in front. -/
theorem StopsAt.succ {room n : Nat} {stop : Stop} {r'' : Reader σ} (h : r'.StopsAt room n stop r'')
    (hafter : r'.Abreast (r.after 1)) : r.StopsAt (room + 1) (n + 1) stop r'' := by
  have houtcome : ∀ n, r'.outcome n = r.outcome (n + 1) := by
    intro n
    rw [hafter.outcome, outcome_after, Nat.add_comm]
  have hevent : ∀ n, r'.event n = r.event (n + 1) := by
    intro n
    rw [hafter.event, ((stands_self r).after 1).ahead, Nat.add_comm]
  have hreader : ∀ n, (r'.after n).Abreast (r.after (n + 1)) := by
    intro n
    have hboth := hafter.after n
    rwa [← after_add, Nat.add_comm] at hboth
  cases h with
  | full eq abreast => exact .full (congrArg (· + 1) eq) (abreast.trans (hreader _))
  | ended lt event_eq abreast =>
    exact .ended (Nat.succ_lt_succ lt) ((hevent _).symm.trans event_eq)
      (abreast.trans (hreader _))
  | failed lt event_ne outcome_eq abreast =>
    rw [hevent] at event_ne
    exact .failed (Nat.succ_lt_succ lt) event_ne ((houtcome _).symm.trans outcome_eq)
      (abreast.trans (hreader _))
  | oversize lt outcome_eq =>
    exact .oversize (Nat.succ_lt_succ lt) ((houtcome _).symm.trans outcome_eq)

theorem GetsTo.cons {room : Nat} {c : Collected (Reader σ)} {record : Record} {place : Place}
    (h : r'.GetsTo room c) (hread : r.outcome 0 = .ok (record, place))
    (hafter : r'.Abreast (r.after 1)) : r.GetsTo (room + 1) (c.cons record) where
  records := by
    have hrest : r'.outcomes c.records.length = r.readPlaced.2.outcomes c.records.length :=
      List.map_congr_left fun n _ => hafter.outcome n
    have hrecords := h.records
    rw [hrest] at hrecords
    rw [Reader.outcome, Reader.after] at hread
    rw [Collected.cons, List.length_cons, outcomes_succ, List.map_cons, hrecords, hread]
    rfl
  stops := h.stops.succ hafter

/-- **The records that are collected are those that the next requests come to.** -/
theorem collect_getsTo (r : Reader σ) (room : Nat) : r.GetsTo room (r.collect room) := by
  induction room generalizing r with
  | zero => exact ⟨rfl, .full rfl ((stands_self r).abreast (stands_self r))⟩
  | succ room ih =>
    rw [collect_succ]
    rcases r.next?_cases with ⟨hnext, hend, habreast⟩ | ⟨hnext, hend, habreast⟩
    · rw [hnext]
      exact ⟨rfl, .ended (Nat.succ_pos room) hend habreast⟩
    · rw [hnext]
      rcases hread : r.outcome 0 with ⟨record, place⟩ | e | _
      · exact (ih r.next?.2).cons hread habreast
      · exact ⟨rfl, .failed (Nat.succ_pos room) hend hread habreast⟩
      · exact ⟨rfl, .oversize (Nat.succ_pos room) hread⟩

end Reader

end SvmLight
