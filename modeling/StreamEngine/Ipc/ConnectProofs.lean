import StreamEngine.Ipc.Connect

/-! The attempts to connect to a named pipe: which of them are made, and what they end with. -/
namespace StreamEngine.Ipc
open ByteString Decimal

namespace Windows

/-- The pipe was busy, and the wait for an instance of it succeeded. -/
def Busy (server : PipeServer) (attempt : Nat) : Prop :=
  server.create attempt = .error errorPipeBusy ∧ server.wait attempt = .ok ()

/-- The attempt leaves this error, other than that the pipe is busy and worth another one. -/
def Fails (server : PipeServer) (attempt reason : Nat) : Prop :=
  server.create attempt = .error reason ∧ reason ≠ errorPipeBusy ∨
    server.create attempt = .error errorPipeBusy ∧ server.wait attempt = .error reason

variable {server : PipeServer}

/-- One attempt. -/
theorem attempts_succ (left first lastError : Nat) :
    (∃ handle, server.create first = .ok handle ∧
        attempts server (left + 1) first lastError = .ok handle) ∨
      (∃ reason, Fails server first reason ∧
        attempts server (left + 1) first lastError = .error reason) ∨
      (Busy server first ∧ attempts server (left + 1) first lastError =
        attempts server left (first + 1) errorPipeBusy) := by
  rw [attempts]
  cases create : server.create first with
  | ok handle => exact .inl ⟨handle, rfl, rfl⟩
  | error reason =>
    by_cases busy : reason = errorPipeBusy
    · subst busy
      cases wait : server.wait first with
      | error reason => exact .inr (.inl ⟨reason, .inr ⟨create, wait⟩, by simp⟩)
      | ok => exact .inr (.inr ⟨⟨create, wait⟩, by simp⟩)
    · exact .inr (.inl ⟨reason, .inl ⟨create, busy⟩, by simp [busy]⟩)

/-- The attempts go on while they find the pipe busy, and the first that does not decides. -/
theorem attempts_spec (left first lastError : Nat) :
    (∃ k, first ≤ k ∧ k < first + left ∧ (∀ i, first ≤ i → i < k → Busy server i) ∧
      ((∃ handle, server.create k = .ok handle ∧
          attempts server left first lastError = .ok handle) ∨
        ∃ reason, Fails server k reason ∧ attempts server left first lastError = .error reason)) ∨
    ((∀ i, first ≤ i → i < first + left → Busy server i) ∧
      attempts server left first lastError = .error (if left = 0 then lastError else errorPipeBusy)) := by
  induction left generalizing first lastError with
  | zero => exact .inr ⟨fun i low high => by omega, rfl⟩
  | succ left ih =>
    rcases @attempts_succ server left first lastError with opens | fails | ⟨busy, again⟩
    · exact .inl ⟨first, le_rfl, by omega, fun i low high => by omega, .inl opens⟩
    · exact .inl ⟨first, le_rfl, by omega, fun i low high => by omega, .inr fails⟩
    · have before : ∀ n, (∀ i, first + 1 ≤ i → i < n → Busy server i) →
          ∀ i, first ≤ i → i < n → Busy server i := by
        intro n later i low high
        rcases Nat.eq_or_lt_of_le low with rfl | next
        · exact busy
        · exact later i next high
      rw [again]
      rcases ih (first + 1) errorPipeBusy with ⟨k, low, high, later, decides⟩ | ⟨later, exhausted⟩
      · exact .inl ⟨k, by omega, by omega, before k later, decides⟩
      · refine .inr ⟨before _ fun i low high => later i low (by omega), ?_⟩
        rw [exhausted, if_neg (Nat.succ_ne_zero left), ite_self]

theorem Fails.not_busy {attempt reason : Nat} (fails : Fails server attempt reason) :
    ¬ Busy server attempt := by
  rintro ⟨create, wait⟩
  rcases fails with ⟨create', other⟩ | ⟨-, wait'⟩
  · exact other (Except.error.inj (create'.symm.trans create))
  · exact nomatch wait.symm.trans wait'

/-- It connects just if, among fifty attempts, the first that does not find the pipe busy opens it.
Otherwise the message names the pipe and the error of that attempt, or that the pipe was busy. -/
theorem connectLocal_iff (server : PipeServer) (token : Bytes) :
    (∀ handle, connectLocal server token = .ok handle ↔
      ∃ k < 50, server.create k = .ok handle ∧ ∀ i < k, Busy server i) ∧
    ∀ message, connectLocal server token = .error message → ∃ reason,
      message = ascii "failed to connect to pipe " ++ pipeName token ++ ascii " (GetLastError=" ++
          decimal reason ++ ascii ")" ∧
        ((∃ k < 50, Fails server k reason ∧ ∀ i < k, Busy server i) ∨
          (reason = errorPipeBusy ∧ ∀ i < 50, Busy server i)) := by
  have spec := @attempts_spec server 50 0 0
  simp only [Nat.zero_le, true_and, true_imp_iff, Nat.zero_add, Nat.reduceEqDiff, if_false] at spec
  -- An attempt that is not busy is the only one up to which all are.
  have only : ∀ {k k'}, ¬ Busy server k → ¬ Busy server k' → (∀ i < k, Busy server i) →
      (∀ i < k', Busy server i) → k = k' := by
    intro k k' ends ends' before before'
    by_contra different
    rcases Nat.lt_or_gt_of_ne different with less | less
    · exact ends (before' k less)
    · exact ends' (before k' less)
  have opened : ∀ {k handle}, server.create k = .ok handle → ¬ Busy server k :=
    fun opens busy => nomatch opens.symm.trans busy.1
  unfold connectLocal
  rcases spec with ⟨k, few, busy, ⟨handle, opens, ran⟩ | ⟨reason, fails, ran⟩⟩ | ⟨busy, ran⟩
  · rw [ran]
    refine ⟨fun handle' => ⟨?_, ?_⟩, nofun⟩
    · rintro ⟨⟩
      exact ⟨k, few, opens, busy⟩
    · rintro ⟨k', few', opens', busy'⟩
      obtain rfl := only (opened opens) (opened opens') busy busy'
      rw [← opens, opens']
  · rw [ran]
    refine ⟨fun handle' => ⟨nofun, ?_⟩, ?_⟩
    · rintro ⟨k', few', opens', busy'⟩
      obtain rfl := only fails.not_busy (opened opens') busy busy'
      rcases fails with ⟨create, -⟩ | ⟨create, -⟩
      · exact nomatch opens'.symm.trans create
      · exact nomatch opens'.symm.trans create
    · rintro message ⟨⟩
      exact ⟨reason, rfl, .inl ⟨k, few, fails, busy⟩⟩
  · rw [ran]
    refine ⟨fun handle' => ⟨nofun, ?_⟩, ?_⟩
    · rintro ⟨k', few', opens', -⟩
      exact absurd (busy k' few') (opened opens')
    · rintro message ⟨⟩
      exact ⟨errorPipeBusy, rfl, .inr ⟨rfl, busy⟩⟩

end Windows

end StreamEngine.Ipc
