import Mathlib.Tactic.Ring
import LibraryPlatform.Authority

/-!
# Loans that are renewed and returned at once

A renewal writes over what it has read without a lock, and so loses the renewals made meanwhile.
It loses their number and their days together.
-/
namespace LibraryPlatform

open KeyedTable Transaction

variable {n : Nat} {api : Api} {visits : Fin n → Visit} {s₀ : DB} {s : Traffic n}
  {svc : BorrowService} {env : Env} {t u : DB}

/-- The number of renewals and the due date agree. -/
structure DatedLoan (svc : BorrowService) (r : BorrowRecord) : Prop where
  count : 0 ≤ r.renewalCount ∧ r.renewalCount ≤ 2
  due : r.dueDate = r.borrowDate + svc.borrowDays * day + r.renewalCount * (svc.renewalDays * day)
  whole : toDatetime r.borrowDate = r.borrowDate

/-- Loans stay, of the same book to the same member from the same day. -/
def LoansKept (s t : DB) : Prop :=
  ∀ x r, s.borrowRecords.get x = some r → ∃ r', t.borrowRecords.get x = some r' ∧
    r'.memberId = r.memberId ∧ r'.bookId = r.bookId ∧ r'.borrowDate = r.borrowDate

theorem LoansKept.refl (s : DB) : LoansKept s s := fun _ r hr => ⟨r, hr, rfl, rfl, rfl⟩

theorem LoansKept.trans {w : DB} (h : LoansKept t u) (h' : LoansKept u w) : LoansKept t w := by
  intro x r hr
  obtain ⟨r', hr', hm, hb, hd⟩ := h x r hr
  obtain ⟨r'', hr'', hm', hb', hd'⟩ := h' x r' hr'
  exact ⟨r'', hr'', hm'.trans hm, hb'.trans hb, hd'.trans hd⟩

theorem LoansKept.of_right {member names : UUID → Prop}
    (h : ∀ x, LoanRight member names (t.borrowRecords.get x) (u.borrowRecords.get x)) :
    LoansKept t u := by
  intro x r hr
  have hright := h x
  rw [hr] at hright
  generalize u.borrowRecords.get x = o at hright
  cases hright with
  | same => exact ⟨r, rfl, rfl, rfl, rfl⟩
  | changed _ _ hm hb hd => exact ⟨_, rfl, hm, hb, hd⟩

def LoansDated (svc : BorrowService) (s : DB) : Prop :=
  ∀ x r, s.borrowRecords.get x = some r → DatedLoan svc r

/-- What all visits keep of the loans, and what each may rely on meanwhile. -/
def renewing (svc : BorrowService) : Discipline DB RowKey where
  inv := LoansDated svc
  rely _ s t := LoansKept s t
  refl _ s := .refl s
  trans h h' := h.trans h'
  anti _ h := h

namespace DatedLoan

theorem lent (memberId bookId : UUID) : DatedLoan svc (borrowedRecord svc env memberId bookId) where
  count := by simp [borrowedRecord]
  due := by simp [borrowedRecord, toDatetime_days]
  whole := toDatetime_stored _

theorem stored {r : BorrowRecord} (h : DatedLoan svc r) : toDatetime r.dueDate = r.dueDate := by
  have hdays : r.dueDate = r.borrowDate +
      (svc.borrowDays + r.renewalCount * svc.renewalDays) * day := by
    rw [h.due]
    ring
  rw [hdays, toDatetime_days, h.whole]

/-- The loan was read as `record`, and is `r` when it is written over. -/
theorem renew {record r : BorrowRecord} (h : DatedLoan svc record)
    (hsame : r.borrowDate = record.borrowDate) (hcount : record.renewalCount < 2) :
    DatedLoan svc (renewedRecord svc record r) := by
  have hdue : (renewedRecord svc record r).dueDate = record.dueDate + svc.renewalDays * day := by
    change toDatetime (record.dueDate + svc.renewalDays * day) = _
    rw [toDatetime_days, h.stored]
  have hborrow : (renewedRecord svc record r).borrowDate = record.borrowDate := hsame
  have hrenewals : (renewedRecord svc record r).renewalCount = record.renewalCount + 1 := rfl
  have hpos := h.count.1
  refine ⟨?_, ?_, ?_⟩
  · rw [hrenewals]
    omega
  · rw [hdue, hborrow, hrenewals, h.due]
    ring
  · rw [hborrow, h.whole]

theorem put {id : UUID} {r : BorrowRecord} (h : LoansDated svc t) (hr : DatedLoan svc r) :
    LoansDated svc (t.put (.borrowRecord id) (.borrowRecord r)) := by
  intro x q hq
  rw [get_putBorrowRecord] at hq
  split at hq
  · cases hq
    exact ⟨hr.count, hr.due, hr.whole⟩
  · exact h x q hq

end DatedLoan

/-- Every operation, whatever it read when, leaves loans whose dates agree. -/
theorem Op.Effect.dated {svc : ReservationService} {guard : Guard} {op : Op}
    (h : op.Effect (renewing (getBorrowService svc)) guard t svc env t u)
    (ht : LoansDated (getBorrowService svc) t) : LoansDated (getBorrowService svc) u := by
  have kept : u.borrowRecords = t.borrowRecords → LoansDated (getBorrowService svc) u :=
    fun he x r hr => ht x r (he ▸ hr)
  rcases Op.Effect.borrowRecords h with he | ⟨memberId, bookId, rfl⟩ | ⟨id, rfl⟩ | ⟨id, rfl⟩
  · exact kept he
  · have hlent : Borrowed (renewing (getBorrowService svc)) t (getBorrowService svc) env memberId
      bookId t u := h
    intro x r hr
    rw [hlent.borrowRecords, Table.get_put] at hr
    split at hr
    · cases hr
      exact .lent memberId bookId
    · exact ht x r hr
  · cases h with
    | again => exact ht
    | @handed w v record r _ _ _ _ _ _ hget hh =>
      have hr := ht id r hget
      intro x q hq
      rw [hh.borrowRecords] at hq
      refine DatedLoan.put ht ?_ x q hq
      exact ⟨hr.count, hr.due, hr.whole⟩
  · cases h with
    | @mk w v record r hpast hread _ hcount _ _ _ hget _ =>
      obtain ⟨hw, hkept⟩ := hpast
      obtain ⟨r', hr', _, _, hborrow⟩ := hkept id record hread
      obtain rfl := Option.some.inj (hget.symm.trans hr')
      exact DatedLoan.put ht ((hw id record hread).renew hborrow hcount)

theorem Op.Effect.loansKept {D : Discipline DB RowKey} {svc : ReservationService} {guard : Guard}
    {op : Op} (h : op.Effect D guard t svc env t u) : LoansKept t u := by
  have hright : ∀ x, LoanRight (fun _ => True) (fun _ => True) (t.borrowRecords.get x)
      (u.borrowRecords.get x) := h.loanRight (fun _ _ => trivial) fun _ _ => trivial
  exact .of_right hright

theorem renewing_kept : Keeping (renewing (getBorrowService api.reservations)) api visits := by
  refine keeping_of fun i s t hc hi => ?_
  generalize visits i = v at hc
  cases hc with
  | nothing => exact ⟨hi, fun _ => .refl s⟩
  | op _ _ he => exact ⟨he.dated hi, fun _ => he.loansKept⟩
  | tokens ht =>
    obtain ⟨_, rfl⟩ := ht
    exact ⟨hi, fun _ => .refl s⟩

/-- However many requests renew and return one loan at once, lost renewals among them: in every
committed state the loan counts two renewals at most and is due after its first period and one
more for each renewal it counts, so that no loan runs longer than three periods; and from then on
no loan of that state is lost or comes to be of another book, another member or another day. -/
theorem loan_period_bounded (h₀ : LoansDated (getBorrowService api.reservations) s₀)
    (h : Sys.Reach Sys.Any (Traffic.start api visits s₀) s) :
    (∀ r ∈ s.db.borrowRecords.rows, DatedLoan (getBorrowService api.reservations) r ∧
      r.dueDate ≤ r.borrowDate + 42 * day) ∧
    ∀ s', Sys.Reach Sys.Any s s' → LoansKept s.db s'.db := by
  have hinv := (renewing_kept.good h₀ (Traffic.unguarded h)).inv
  refine ⟨fun r hr => ?_, fun s' h' =>
    renewing_kept.onward h₀ (Traffic.unguarded h) (Traffic.unguarded h')⟩
  have hdated := hinv r.id r (Table.get_of_mem hr)
  have hdue : r.dueDate = r.borrowDate + 14 * day + r.renewalCount * (14 * day) := hdated.due
  have hcount := hdated.count.2
  refine ⟨hdated, ?_⟩
  rw [hdue]
  simp only [day, hour, second]
  omega

theorem LoansDated.of_stored (h : LoansStored svc t) : LoansDated svc t :=
  fun x r hr => ⟨(h x r hr).count, (h x r hr).due, (h x r hr).whole⟩

/-- The loan of before is renewed twice at once. -/
def demoRenewing : Fin 2 → Visit
  | 0 => .write 2 none (demoEnv 0 (2 * hour)) (.renewBook 100)
  | 1 => .write 2 none (demoEnv 0 (3 * hour)) (.renewBook 100)

/-- Both requests read the loan before either of them writes it. -/
def demoRenewal (i j : Fin 2) : List (Fin 2 × Move RowKey) :=
  [(i, .run), (j, .run), (i, .acquire (.borrowRecord 100)), (i, .run)]

def demoLostRenewal (j : Fin 2) : List (Fin 2 × Move RowKey) :=
  [(j, .acquire (.borrowRecord 100)), (j, .run)]

/-- Both renewals succeed, and one of them is lost with its fourteen days. -/
theorem loan_period_bounded_demo :
    ∃ s s' r, (Traffic.start demoApi demoRenewing demoLoaned).runs (demoRenewal 0 1) = some s ∧
      (s.txn 0).hasReturned ∧ s.runs (demoLostRenewal 1) = some s' ∧ (s'.txn 1).hasReturned ∧
      s'.db.borrowRecords.rows = [r] ∧ r.dueDate = hour + 28 * day ∧ LoansKept s.db s'.db ∧
      DatedLoan (getBorrowService demoApi.reservations) r := by
  have hruns : ((Traffic.start demoApi demoRenewing demoLoaned).runs (demoRenewal 0 1)).any fun s =>
      (s.txn 0).hasReturned ∧ (s.runs (demoLostRenewal 1)).any fun s' =>
        (s'.txn 1).hasReturned ∧ s'.db.borrowRecords.rows =
        [{ demoLoan100 with
          dueDate := hour + 28 * day, renewalCount := 1, status := .renewed }] := by
    decide
  obtain ⟨s, hs, hfirst⟩ := (Option.any_eq_true _ _).mp hruns
  obtain ⟨hfirst, hsecond⟩ := of_decide_eq_true hfirst
  obtain ⟨s', hs', hsecond⟩ := (Option.any_eq_true _ _).mp hsecond
  obtain ⟨hsecond, hloans⟩ := of_decide_eq_true hsecond
  have hdated : LoansDated (getBorrowService demoApi.reservations) demoLoaned :=
    .of_stored (demoLog_log.sound (.empty _)).loans
  have hreach := Sys.reach_of_runs hs
  have hreach' := Sys.reach_of_runs hs'
  obtain ⟨_, hkept⟩ := loan_period_bounded hdated hreach
  obtain ⟨hall, _⟩ := loan_period_bounded hdated (hreach.trans hreach')
  exact ⟨s, s', _, hs, hfirst, hs', hsecond, hloans, rfl, hkept s' hreach',
    (hall _ (hloans ▸ List.mem_cons_self)).1⟩

end LibraryPlatform
