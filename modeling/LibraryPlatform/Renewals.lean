import LibraryPlatform.LoanCalls

/-!
# Renewals and the queue

`renew_book` asks an injected policy whether somebody waits for the book. The production wiring
leaves the default in place, which never says so.
-/
namespace LibraryPlatform

open KeyedTable Transaction

/-- Another member has a reservation of the loan's book that is PENDING or HOLD. -/
def AwaitedByOthers (r : BorrowRecord) (s : DB) : Prop :=
  ∃ q ∈ s.reservations.rows, q.bookId = r.bookId ∧ q.memberId ≠ r.memberId ∧ q.status.isActive

/-- A renewal of the loan succeeds only if nobody else waits for the book, and raises otherwise. -/
structure RespectsQueue (svc : ReservationService) (env : Env) (r : BorrowRecord) (s : DB) :
    Prop where
  allowed : ∀ reply s', call (Op.run svc env (.renewBook r.id)) s = (.ok reply, s') →
    ¬AwaitedByOthers r s
  refused : AwaitedByOthers r s → ∃ e s', call (Op.run svc env (.renewBook r.id)) s =
    (.error e, s') ∧ s'.borrowRecords.get r.id = some r

variable {svc : ReservationService} {env : Env} {s : DB} {r : BorrowRecord}

/-- A renewal respects the queue exactly when nobody else is in it, or the loan could not be
renewed anyway. -/
theorem renewal_respects_queue_iff (h : Runs svc AnyOp s) (hr : r ∈ s.borrowRecords.rows) :
    RespectsQueue svc env r s ↔ ¬AwaitedByOthers r s ∨ ¬Renewable env r := by
  have hget : s.borrowRecords.get r.id = some r := Table.get_of_mem hr
  constructor
  · intro hqueue
    by_cases hrenew : Renewable env r
    · obtain ⟨loan, hcall⟩ := call_renew (.of_runs h) hget hrenew
      exact .inl (hqueue.allowed _ _ hcall)
    · exact .inr hrenew
  · rintro (hnobody | hnot)
    · exact ⟨fun _ _ _ => hnobody, fun hawaited => absurd hawaited hnobody⟩
    · obtain ⟨_, hcall⟩ := call_renew_refused hget hnot
      refine ⟨fun reply s' hok => ?_, fun _ => ⟨_, s, hcall, hget⟩⟩
      cases hcall.symm.trans hok

/-- Members 10 and 12 have a book each, and member 11 waits for that of member 12. -/
def demoElsewhere : DB :=
  serial ⟨48⟩ [(demoEnv 1 0, .createBook "Emma" "Austen" "9780141439587" 1 none),
    (demoEnv 2 0, .createBook "Persuasion" "Austen" "9780141439686" 1 none),
    (demoEnv 100 hour, .borrowBook 10 1), (demoEnv 101 hour, .borrowBook 12 2),
    (demoEnv 200 (2 * hour), .placeReservation 11 2)] demoStart

/-- On time, the loan nobody waits for is renewed. The other is refused, but only for being late. -/
theorem renewal_respects_queue_demo :
    let free : BorrowRecord := ⟨100, 10, 1, hour, hour + 14 * day, none, 0, .borrowed⟩
    let awaited : BorrowRecord := ⟨101, 12, 2, hour, hour + 14 * day, none, 0, .borrowed⟩
    (Renewable (demoEnv 0 (3 * hour)) free ∧
      RespectsQueue ⟨48⟩ (demoEnv 0 (3 * hour)) free demoElsewhere) ∧
    AwaitedByOthers awaited demoElsewhere ∧
      RespectsQueue ⟨48⟩ (demoEnv 0 (20 * day)) awaited demoElsewhere := by
  intro free awaited
  have hruns : Runs ⟨48⟩ AnyOp demoElsewhere := demoStart_runs.serial _ fun _ _ _ => trivial
  have hfree : free ∈ demoElsewhere.borrowRecords.rows := by decide
  have hawaited : awaited ∈ demoElsewhere.borrowRecords.rows := by decide
  have hnobody : ∀ q ∈ demoElsewhere.reservations.rows, q.bookId ≠ 1 := by decide
  have hlate : ¬Renewable (demoEnv 0 (20 * day)) awaited :=
    fun hrenew => absurd hrenew.2.2 (by decide)
  refine ⟨⟨⟨by decide, by decide, by decide⟩, ?_⟩, ?_, ?_⟩
  · exact (renewal_respects_queue_iff hruns hfree).mpr
      (.inl fun ⟨q, hq, hbook, _⟩ => hnobody q hq hbook)
  · exact ⟨⟨200, 11, 2, 2 * hour, none, .pending⟩, by decide, rfl, by decide, rfl⟩
  · exact (renewal_respects_queue_iff hruns hawaited).mpr (.inr hlate)

/-- Member 11 waits for the only copy, and member 10 renews the loan of it. -/
theorem renewal_overtakes_queue :
    ¬∀ s, Runs ⟨48⟩ AnyOp s → ∀ r ∈ s.borrowRecords.rows, ∀ env, RespectsQueue ⟨48⟩ env r s := by
  intro hclaim
  have hr : (⟨100, 10, 1, hour, hour + 14 * day, none, 0, .borrowed⟩ : BorrowRecord) ∈
    demoWaiting.borrowRecords.rows := by decide
  have hrenew : Renewable (demoEnv 0 (3 * hour))
      ⟨100, 10, 1, hour, hour + 14 * day, none, 0, .borrowed⟩ :=
    ⟨by decide, by decide, by decide⟩
  obtain ⟨loan, hcall⟩ := call_renew (.of_runs demoWaiting_runs) (Table.get_of_mem hr) hrenew
  refine (hclaim _ demoWaiting_runs _ hr (demoEnv 0 (3 * hour))).allowed _ _ hcall ?_
  exact ⟨⟨200, 11, 1, 2 * hour, none, .pending⟩, by decide, rfl, by decide, rfl⟩

end LibraryPlatform
