/-
# The outer handler

What the outer handler of `executeStatement` reads from the cancellation flags, and what it
leaves in the children.
-/
import GmsvPg.Postgres.Course
import Mathlib.Data.List.Basic

namespace GmsvPg

open Transaction

/-- The value that the second loop reads for the `i`th child, if the flag has the value `flag`
when the loop begins. -/
def flagAt (during : ℕ → Option Bool) (flag : Bool) : ℕ → Bool
  | 0 => stored (during 0) flag
  | i + 1 => stored (during (i + 1)) (flagAt during flag i)

/-- The value after the loop over `n` children. -/
def flagAfter (during : ℕ → Option Bool) (flag : Bool) : ℕ → Bool
  | 0 => flag
  | n + 1 => flagAt during flag n

lemma flagAt_shift (during : ℕ → Option Bool) (flag : Bool) (i : ℕ) :
    flagAt (fun i => during (i + 1)) (stored (during 0) flag) i = flagAt during flag (i + 1) := by
  induction i with
  | zero => rfl
  | succ i ih => rw [flagAt, ih, flagAt, flagAt, flagAt]

lemma flagAfter_shift (during : ℕ → Option Bool) (flag : Bool) (n : ℕ) :
    flagAfter (fun i => during (i + 1)) (stored (during 0) flag) n =
      flagAfter during flag (n + 1) := by
  cases n with
  | zero => rfl
  | succ n => exact flagAt_shift during flag n

/-- The second loop, child by child. -/
lemma abandonChildren_eq (error : PGException) (during : ℕ → Option Bool) (flag : Bool)
    (cs : List IQueryData) :
    abandonChildren error during flag cs =
      (cs.mapIdx fun i d => abandonChild error (flagAt during flag i) d,
        flagAfter during flag cs.length) := by
  induction cs generalizing during flag with
  | nil => rfl
  | cons d rest ih =>
      rw [abandonChildren, ih]
      simp only [List.mapIdx_cons, flagAt_shift, flagAfter_shift, List.length_cons, flagAt]

/-- The flag of the transaction when the second loop begins. -/
def collected (stores : FlagStores) (w : Backend) : Bool :=
  (collectFlags (storeFlags stores w)).data.cancellationRequested

/-- The flag that the handler reads for the `i`th child. -/
def flagRead (stores : FlagStores) (w : Backend) (i : ℕ) : Bool :=
  flagAt stores.during (collected stores w) i

/-- The flag that `runQuery` reads. -/
def lateFlag (stores : FlagStores) (w : Backend) : Bool :=
  stored stores.late (flagAfter stores.during (collected stores w) w.children.length)

/-- The children that the handler leaves. -/
lemma handleFailure_children (stores : FlagStores) (error : PGException) (w : Backend) :
    (handleFailure stores error w).children =
      w.children.mapIdx fun i d =>
        abandonChild error (flagRead stores w i)
          { d with cancellationRequested := stored (stores.child i) d.cancellationRequested } := by
  simp only [handleFailure, abandonChildren_eq, collectFlags, storeFlags, List.mapIdx_mapIdx]
  rfl

lemma handleFailure_flag (stores : FlagStores) (error : PGException) (w : Backend) :
    stored stores.late (handleFailure stores error w).data.cancellationRequested =
      lateFlag stores w := by
  simp only [handleFailure, abandonChildren_eq, lateFlag]
  split
  · simp [collectFlags, storeFlags, collected]
  · simp [collectFlags, storeFlags, collected]

lemma handleFailure_sent (stores : FlagStores) (error : PGException) (w : Backend) :
    (handleFailure stores error w).sent = w.sent := rfl

/-- The text that the handler leaves in the transaction. -/
lemma handleFailure_errorText (stores : FlagStores) (error : PGException) (w : Backend) :
    (handleFailure stores error w).data.errorText =
      if outcomeUnknown w.data.errorText then w.data.errorText
      else rolledBackMessage error.message := by
  have htext : (collectFlags (storeFlags stores w)).data.errorText = w.data.errorText := rfl
  simp only [handleFailure, htext]
  split <;> simp

/-! ### The flags along a course -/

lemma map_flag_of_forgetStatus {cs cs' : List IQueryData}
    (h : cs'.map forgetStatus = cs.map forgetStatus) :
    cs'.map (·.cancellationRequested) = cs.map (·.cancellationRequested) := by
  have hflag := congrArg (List.map (·.cancellationRequested)) h
  simpa only [List.map_map, Function.comp_def, forgetStatus] using hflag

namespace Ending

/-- The flag of the transaction is left alone up to the outer handler. -/
lemma data_flag (ending : Ending) (d : IQueryData) :
    (ending.data d).cancellationRequested = d.cancellationRequested := by
  unfold data
  split
  · rfl
  · split <;> rfl

lemma children_flags (ending : Ending) (cs : List IQueryData) :
    (ending.children cs).map (·.cancellationRequested) = cs.map (·.cancellationRequested) := by
  unfold children
  split
  · simp [failChild, Function.comp_def]
  · split
    · simp [succeedChild, Function.comp_def]
    · rfl

end Ending

lemma any_flag_mapIdx (child : ℕ → Option Bool) (cs : List IQueryData) :
    (cs.mapIdx fun i d =>
        { d with cancellationRequested := stored (child i) d.cancellationRequested }).any
        (·.cancellationRequested) =
      ((cs.map (·.cancellationRequested)).mapIdx fun i flag => stored (child i) flag).any id := by
  induction cs generalizing child with
  | nil => rfl
  | cons d rest ih =>
      simp only [List.mapIdx_cons, List.map_cons, List.any_cons, ih fun i => child (i + 1), id]

/-- The stores into the flags of the children, and what the first loop reads. -/
lemma collected_eq (stores : FlagStores) (w : Backend) :
    collected stores w =
      (((w.children.map (·.cancellationRequested)).mapIdx fun i flag =>
          stored (stores.child i) flag).any id ||
        stored stores.early w.data.cancellationRequested) := by
  rw [← any_flag_mapIdx]
  rfl

namespace Reached

variable {replies : ℕ → Reply} {w w' : Backend} {k : Course}

lemma flags (h : Reached replies w w' k) :
    w'.children.map (·.cancellationRequested) = w.children.map (·.cancellationRequested) := by
  obtain ⟨cs, hcs, hchildren⟩ := h.children
  rw [hchildren, Ending.children_flags, map_flag_of_forgetStatus hcs]

/-- The handler reads the flags as they were when the transaction began. -/
lemma collected_eq (h : Reached replies w w' k) (stores : FlagStores) :
    collected stores w' = collected stores w := by
  rw [GmsvPg.collected_eq, GmsvPg.collected_eq, h.flags, h.data, Ending.data_flag]

lemma length_children (h : Reached replies w w' k) : w'.children.length = w.children.length := by
  have hlength := congrArg List.length h.flags
  simpa using hlength

lemma flagRead_eq (h : Reached replies w w' k) (stores : FlagStores) (i : ℕ) :
    flagRead stores w' i = flagRead stores w i := by
  rw [flagRead, flagRead, h.collected_eq]

lemma lateFlag_eq (h : Reached replies w w' k) (stores : FlagStores) :
    lateFlag stores w' = lateFlag stores w := by
  rw [lateFlag, lateFlag, h.collected_eq, h.length_children]

end Reached

end GmsvPg
