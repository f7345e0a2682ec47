/-
# No thread outlives its database

A database is destroyed by the garbage collector, or when Lua is closed, and the module is
unloaded after it was closed.  The worker thread uses the members of the database until it ends;
so it must have ended by then.  `onDestroyedByLua` aborts what is queued and calls
`disconnect(true)`, which joins the thread, and the fields of the objects keep the garbage
collector from a database that a query or a function still needs.  This file shows that both
suffice, whatever user code, the garbage collector and the threads of all databases do.
-/
import GmsvPg.Lua.Barrier
import GmsvPg.Objects.Balance
import GmsvPg.Objects.Staging

namespace GmsvPg.Database

open Library

namespace State

variable {s t : State}

/-- No thread is in the database: the main thread is in none of its operations, and the worker
thread was not started or has ended. -/
def Stopped (s : State) : Prop :=
  s.mainPC = .idle ∧ (s.workerPC = .notStarted ∨ s.workerPC = .ended)

/-- The main thread is in `disconnect(true)`, or has come back from it. -/
def Joining (s : State) : Prop := s.mainPC.joins = true ∨ s.Stopped

lemma Stopped.not_worker (hI : s.Stopped) {c : Choice} {a : Access} {pc : WorkerPC} :
    s.workerPC.next s.toShared c ≠ some (a, pc) := by
  rcases hI.2 with hpc | hpc
  · rw [hpc]
    exact nofun
  · rw [hpc]
    exact nofun

/-- No step of the threads starts the worker thread again. -/
lemma Stopped.step {a : Action} (hI : s.Stopped) (h : Step s a t) (ha : ∀ m, a ≠ .call m) :
    t.Stopped := by
  cases h with
  | worker hnext => exact absurd hnext hI.not_worker
  | main hspawn hnext =>
      rw [hI.1] at hnext
      cases hnext
  | spawn hpc => exact absurd (hpc.symm.trans hI.1) (by simp)
  | join hpc => exact absurd (hpc.symm.trans hI.1) (by simp)
  | call => exact absurd rfl (ha _)
  | connectionLost => exact hI

/-- `disconnect(true)` returns when the worker thread has ended. -/
lemma Joining.step {a : Action} (hI : s.Joining) (h : Step s a t) (ha : ∀ m, a ≠ .call m) :
    t.Joining := by
  rcases hI with hjoins | hstopped
  · cases h with
    | worker => exact .inl hjoins
    | main hspawn hnext => exact .inl (MainPC.next_joins hnext hjoins)
    | spawn hpc =>
        rw [hpc] at hjoins
        cases hjoins
    | join hpc hworker => exact .inr ⟨rfl, hworker⟩
    | call => exact absurd rfl (ha _)
    | connectionLost => exact .inl hjoins
  · exact .inr (hstopped.step h ha)

lemma Joining.stopped (hI : s.Joining) (hidle : s.mainPC = .idle) : s.Stopped := by
  refine hI.resolve_left fun hjoins => ?_
  rw [hidle] at hjoins
  cases hjoins

/-- `disconnect(true)` returns at once if the worker thread was not started. -/
lemma joining_of_disconnect (hr : system.Reachable s)
    (h : system.next s (.call (.disconnect true)) = some t) : t.Joining := by
  have h : (if s.mainPC = .idle then s.call (.disconnect true) else none) = some t := h
  split at h
  · rename_i hidle
    have h : (if s.startedConnecting then
        some { s with mainPC := .shutdown .exchange true {} } else some s) = some t := h
    split at h
    · obtain rfl := Option.some.inj h
      exact .inl rfl
    · rename_i hstarted
      obtain rfl := Option.some.inj h
      exact .inr ⟨hidle, .inl ((startedOnce hr).before (by simpa using hstarted))⟩
  · cases h

lemma Stopped.takeFinished (hI : s.Stopped) (h : system.next s (.call .takeFinished) = some t) :
    t.Stopped := by
  have h : (if s.mainPC = .idle then some s.takeFinished else none) = some t := h
  rw [if_pos hI.1] at h
  obtain rfl := Option.some.inj h
  exact hI

end State

end GmsvPg.Database

namespace GmsvPg.Objects

open Library Machine
open Database (Execution Choice MainPC)

/-! ### What the objects show of the databases -/

/-- The threads of a database, and whether it was destroyed. -/
def DatabaseObject.thread (o : DatabaseObject) : Database.State × Bool :=
  (o.layer.database, o.destroyed)

/-- What of a query decides about its database. -/
structure Owner where
  database : ℕ
  reference : ℕ
  destroyed : Bool

def QueryObject.owner (x : QueryObject) : Owner := ⟨x.database, x.databaseReference, x.destroyed⟩

/-- The databases that a function on the stack destroys or is to destroy. -/
def Entry.ending : Entry → List ℕ
  | .destroying d _ _ => [d]
  | .shutdownAll rest => rest
  | _ => []

/-- What is known of the threads of a database at a point of `onDestroyedByLua`. -/
def DestroyStage.Allows (stage : DestroyStage) (x : Database.State) : Prop :=
  match stage with
  | .disconnecting => x.Joining
  | .finishTaken _ => x.Stopped
  | _ => True

/-- Finalizers run alone: over what user code was doing when the garbage collector came, or on
an empty stack once the module is closed. -/
inductive Shaped : Bool → List Entry → Prop
  | running {stack : List Entry} (h : ∀ x ∈ stack, x.finalizes = false) : Shaped false stack
  | collecting {closed : Bool} {d : ℕ} {stage : DestroyStage} {below : List Entry}
      (h : ∀ x ∈ below, x.finalizes = false) (hclosed : closed = true → below = []) :
      Shaped closed (.destroying d stage true :: below)
  | closing {rest : List ℕ} : Shaped true [.shutdownAll rest]
  | shuttingDown {d : ℕ} {stage : DestroyStage} {rest : List ℕ} :
      Shaped true [.destroying d stage false, .shutdownAll rest]
  | closed : Shaped true []

/-- User code runs while the module is open, over other functions of user code. -/
lemma Shaped.of_running {closed : Bool} {x : Entry} {below : List Entry}
    (h : Shaped closed (x :: below)) (hx : x.finalizes = false) :
    closed = false ∧ ∀ y ∈ below, y.finalizes = false := by
  cases h with
  | running h => exact ⟨rfl, fun y hy => h y (List.mem_cons_of_mem x hy)⟩
  | collecting | closing | shuttingDown => cases hx

/-- Either nothing else is being destroyed, or the module is being closed. -/
lemma Shaped.of_destroying {closed : Bool} {d : ℕ} {stage : DestroyStage} {delete : Bool}
    {below : List Entry} (h : Shaped closed (.destroying d stage delete :: below)) :
    delete = true ∧ (∀ y ∈ below, y.finalizes = false) ∧ (closed = true → below = []) ∨
      delete = false ∧ closed = true ∧ ∃ rest, below = [.shutdownAll rest] := by
  cases h with
  | running h => exact absurd (h _ List.mem_cons_self) (by simp [Entry.finalizes])
  | collecting hbelow hclosed => exact .inl ⟨rfl, hbelow, hclosed⟩
  | shuttingDown => exact .inr ⟨rfl, rfl, _, rfl⟩

/-- `shutdownAll` runs when the module is closed. -/
lemma Shaped.of_shutdownAll {closed : Bool} {rest : List ℕ} {below : List Entry}
    (h : Shaped closed (.shutdownAll rest :: below)) : closed = true ∧ below = [] := by
  cases h with
  | running h => exact absurd (h _ List.mem_cons_self) (by simp [Entry.finalizes])
  | closing => exact ⟨rfl, rfl⟩

lemma Shaped.restage {closed : Bool} {d : ℕ} {stage stage' : DestroyStage} {delete : Bool}
    {below : List Entry} (h : Shaped closed (.destroying d stage delete :: below)) :
    Shaped closed (.destroying d stage' delete :: below) := by
  cases h with
  | running h => exact absurd (h _ List.mem_cons_self) (by simp [Entry.finalizes])
  | collecting hbelow hclosed => exact .collecting hbelow hclosed
  | shuttingDown => exact .shuttingDown

lemma ending_of_running {stack : List Entry} (h : ∀ x ∈ stack, x.finalizes = false) :
    stack.flatMap Entry.ending = [] := by
  refine List.flatMap_eq_nil_iff.2 fun x hx => ?_
  cases x with
  | function | thinkHooks => rfl
  | destroying | shutdownAll => exact absurd (h _ hx) (by simp [Entry.finalizes])

/-- A thread that goes on, or the main thread inside an operation of `Database`. -/
lemma keeps_of_thread {l layer : Lua.State} {a : Lua.Action} (hlua : a ≠ .lua)
    (hcall : ∀ f, a ≠ .call f) (h : Lua.machine.next l a = some layer) :
    (l.database.Stopped → layer.database.Stopped) ∧
      (l.database.Joining → layer.database.Joining) := by
  rcases (Lua.step_of_next h).database with hsame | ⟨b, hdrives, hb⟩
  · rw [hsame]
    exact ⟨id, id⟩
  · have hnot : ∀ m, b ≠ .call m := by
      rintro m rfl
      cases a with
      | worker | connectionLost | main => cases hdrives
      | lua => exact hlua rfl
      | call f => exact hcall f rfl
    have hstep := Database.step_of_next hb
    exact ⟨fun hI => hI.step hstep hnot, fun hI => hI.step hstep hnot⟩

lemma DestroyStage.Allows.mono {stage : DestroyStage} {x y : Database.State} (h : stage.Allows x)
    (hstopped : x.Stopped → y.Stopped) (hjoining : x.Joining → y.Joining) : stage.Allows y := by
  cases stage with
  | disconnecting => exact hjoining h
  | finishTaken => exact hstopped h
  | abortAllQueries | aborting | finishAborted => trivial

namespace State

variable {C : State → Action → Prop} {s t : State}

def threads (s : State) : List (Database.State × Bool) := s.databases.map DatabaseObject.thread

def owners (s : State) : List Owner := s.queries.map QueryObject.owner

/-- The databases that are being destroyed or are about to be. -/
def ending (s : State) : List ℕ := s.stack.flatMap Entry.ending

lemma threads_eq (s : State) :
    s.threads = s.cores.map fun c => (c.layer.database, c.destroyed) := by
  rw [threads, cores, List.map_map]
  rfl

lemma thread_of_database {d : ℕ} {o : DatabaseObject} (ho : s.databases[d]? = some o) :
    s.threads[d]? = some (o.layer.database, o.destroyed) := by
  rw [threads, List.getElem?_map, ho]
  rfl

lemma Same.threads (h : s.Same t) : t.threads = s.threads := by
  rw [threads_eq, threads_eq, h.cores]

lemma thread_modifyDatabase_of_ne {f : DatabaseObject → DatabaseObject} {d i : ℕ} (hi : i ≠ d) :
    (s.modifyDatabase d f).threads[i]? = s.threads[i]? := by
  show ((s.databases.modify d f).map DatabaseObject.thread)[i]? =
    (s.databases.map DatabaseObject.thread)[i]?
  rw [List.getElem?_map, List.getElem?_map, List.getElem?_modify]
  simp [Ne.symm hi]

/-- A database after one has changed. -/
lemma thread_modifyDatabase {f : DatabaseObject → DatabaseObject} {d i : ℕ} {o : DatabaseObject}
    {x : Database.State} {g : Bool} (ho : s.databases[d]? = some o)
    (h : (s.modifyDatabase d f).threads[i]? = some (x, g)) :
    i = d ∧ (f o).thread = (x, g) ∨ i ≠ d ∧ s.threads[i]? = some (x, g) := by
  by_cases hi : i = d
  · subst hi
    have h : ((s.databases.modify i f).map DatabaseObject.thread)[i]? = some (x, g) := h
    rw [List.getElem?_map, List.getElem?_modify, ho] at h
    exact .inl ⟨rfl, by simpa using h⟩
  · exact .inr ⟨hi, thread_modifyDatabase_of_ne hi ▸ h⟩

lemma threads_setLayer (d : ℕ) (layer : Lua.State) :
    (s.setLayer d layer).threads = s.threads.modify d fun x => (layer.database, x.2) := by
  refine List.ext_getElem? fun i => ?_
  show ((s.databases.modify d fun o => { o with layer := layer }).map DatabaseObject.thread)[i]? =
    ((s.databases.map DatabaseObject.thread).modify d fun x => (layer.database, x.2))[i]?
  rw [List.getElem?_map, List.getElem?_modify, List.getElem?_modify, List.getElem?_map]
  by_cases hi : d = i
  · cases s.databases[i]? <;> simp [hi, DatabaseObject.thread]
  · cases s.databases[i]? <;> simp [hi]

lemma thread_setLayer {d i : ℕ} {o : DatabaseObject} {layer : Lua.State} {x : Database.State}
    {g : Bool} (ho : s.databases[d]? = some o)
    (h : (s.setLayer d layer).threads[i]? = some (x, g)) :
    i = d ∧ x = layer.database ∧ g = o.destroyed ∨ i ≠ d ∧ s.threads[i]? = some (x, g) := by
  refine (thread_modifyDatabase ho h).imp_left ?_
  rintro ⟨hi, heq⟩
  obtain ⟨rfl, rfl⟩ := Prod.mk.inj heq
  exact ⟨hi, rfl, rfl⟩

lemma exists_thread_setLayer {d i : ℕ} {layer : Lua.State} {x : Database.State} {g : Bool}
    (h : s.threads[i]? = some (x, g)) : ∃ y, (s.setLayer d layer).threads[i]? = some (y, g) := by
  rw [threads, List.getElem?_map] at h
  obtain ⟨o, ho, heq⟩ := Option.map_eq_some_iff.1 h
  obtain ⟨-, rfl⟩ := Prod.mk.inj heq
  show ∃ y, ((s.databases.modify d fun o => { o with layer := layer }).map
    DatabaseObject.thread)[i]? = some (y, o.destroyed)
  rw [List.getElem?_map, List.getElem?_modify, ho]
  by_cases hi : d = i
  · exact ⟨layer.database, by simp [hi, DatabaseObject.thread]⟩
  · exact ⟨o.layer.database, by simp [hi, DatabaseObject.thread]⟩

/-- Two changes of a database that differ in other fields only. -/
lemma threads_modifyDatabase {f g : DatabaseObject → DatabaseObject}
    (h : ∀ o, (f o).thread = (g o).thread) (d : ℕ) :
    (s.modifyDatabase d f).threads = (s.modifyDatabase d g).threads := by
  refine List.ext_getElem? fun i => ?_
  show ((s.databases.modify d f).map DatabaseObject.thread)[i]? =
    ((s.databases.modify d g).map DatabaseObject.thread)[i]?
  rw [List.getElem?_map, List.getElem?_map, List.getElem?_modify, List.getElem?_modify]
  by_cases hi : d = i
  · cases s.databases[i]? <;> simp [hi, h]
  · cases s.databases[i]? <;> simp [hi]

/-! ### The databases of the queries -/

lemma owners_modifyQuery {q : ℕ} {f : QueryObject → QueryObject}
    (hf : ∀ x, (f x).owner = x.owner) : (s.modifyQuery q f).owners = s.owners :=
  map_modify_eq fun x _ => hf x

lemma owners_addStaged (queries : List (ℕ × ℕ)) : (s.addStaged queries).owners = s.owners := by
  induction queries generalizing s with
  | nil => rfl
  | cons child queries ih => exact ih.trans (owners_modifyQuery fun _ => rfl)

lemma owners_finishStaged (queries : List (ℕ × ℕ)) :
    (s.finishStaged queries).owners = s.owners := by
  induction queries generalizing s with
  | nil => rfl
  | cons child queries ih => exact ih.trans (owners_modifyQuery fun _ => rfl)

lemma owners_finishData (q : ℕ) (data : Data) (x : ExecutionData) :
    (s.finishData q data x).owners = s.owners := by
  unfold finishData finishQueryData
  refine (owners_modifyQuery fun x => ?_).trans (owners_finishStaged x.queries)
  rfl

lemma owners_finishLuaQueryData (d : ℕ) (e : Execution) :
    (s.finishLuaQueryData d e).owners = s.owners := by
  unfold finishLuaQueryData
  split
  · rfl
  · exact owners_finishData _ _ _

lemma owners_clearAddedQueries (u : ℕ) : (s.clearAddedQueries u).owners = s.owners := by
  unfold clearAddedQueries
  split
  · rfl
  · exact owners_modifyQuery fun _ => rfl

lemma owners_endCallback (d : ℕ) (e : Execution) (loc : Local) :
    (s.endCallback d e loc).owners = s.owners := by
  cases loc with
  | transaction =>
      show (s.clearAddedQueriesFromCallbackTable d e).owners = _
      unfold clearAddedQueriesFromCallbackTable
      split
      · exact owners_clearAddedQueries e.query
      · rfl
  | _ => rfl

lemma owners_pushResults {α : Type} (l : List α) :
    (l.foldl (fun s _ => s.pushResults) s).owners = s.owners := by
  induction l generalizing s with
  | nil => rfl
  | cons a l ih => exact ih (s := s.pushResults)

lemma owners_runCallback (d : ℕ) (e : Execution) : (s.runCallback d e).1.owners = s.owners := by
  unfold runCallback
  split
  · simp only
    split
    · rfl
    · split
      · rfl
      · rfl
      · split
        · split
          · rfl
          · exact owners_pushResults _
        · rfl
  · rfl

lemma owners_perform (d : ℕ) (loc : Local) (effect : Lua.Effect) :
    (s.perform d loc effect).1.owners = s.owners := by
  cases effect with
  | think effect =>
      cases effect with
      | freeTable =>
          show (s.freeTable d).owners = _
          unfold freeTable
          split <;> rfl
      | runCallback p => exact owners_runCallback d p.execution
      | finishQueryData p =>
          exact (owners_finishLuaQueryData d p.execution).trans
            (owners_endCallback d p.execution loc)
      | _ => rfl
  | finishAborted e =>
      exact (owners_finishLuaQueryData d e).trans (owners_endCallback d e loc)
  | _ => rfl

lemma threads_perform (d : ℕ) (loc : Local) (effect : Lua.Effect) :
    (s.perform d loc effect).1.threads = s.threads := by
  by_cases hfree : effect = .think .freeTable
  · subst hfree
    show (s.freeTable d).threads = _
    unfold freeTable
    split
    · rfl
    · exact map_modify_eq fun _ _ => rfl
  · exact (same_perform hfree).threads

/-- What an operation that returns leads to. -/
lemma afterMain_spec (d : ℕ) (pc pc' : MainPC) :
    (s.afterMain d pc pc').threads = s.threads ∧ (s.afterMain d pc pc').owners = s.owners ∧
      (s.afterMain d pc pc').closed = s.closed ∧
      ((s.afterMain d pc pc').stack = s.stack ∨ ∃ delete below completed,
        s.stack = .destroying d .aborting delete :: below ∧
          (s.afterMain d pc pc').stack =
            .destroying d (.finishAborted completed) delete :: below) := by
  unfold afterMain
  split
  · rename_i e
    have hsame := same_finishLuaQueryData (s := s) d e
    exact ⟨hsame.threads, owners_finishLuaQueryData d e, hsame.closed, .inl hsame.stack⟩
  · split
    · exact ⟨rfl, owners_modifyQuery fun _ => rfl, rfl, .inl rfl⟩
    · exact ⟨rfl, rfl, rfl, .inl rfl⟩
  · split <;> exact ⟨rfl, rfl, rfl, .inl rfl⟩
  · split <;> exact ⟨rfl, rfl, rfl, .inl rfl⟩
  · split
    · rename_i d' delete below hstack
      split
      · rename_i hd
        subst hd
        exact ⟨rfl, rfl, rfl, .inr ⟨delete, below, _, hstack, rfl⟩⟩
      · exact ⟨rfl, rfl, rfl, .inl rfl⟩
    · exact ⟨rfl, rfl, rfl, .inl rfl⟩
  · exact ⟨rfl, rfl, rfl, .inl rfl⟩

/-! ### What is kept -/

/-- A database is over: it was destroyed, or the module is closed and has shut it down. -/
def Over (s : State) (d : ℕ) (destroyed : Bool) : Prop :=
  destroyed = true ∨ s.closed = true ∧ d ∉ s.ending

/-- A database that was not destroyed, and is not about to be. -/
def Usable (s : State) (d : ℕ) : Prop := d ∉ s.ending ∧ ∃ x, s.threads[d]? = some (x, false)

/-- What destruction keeps to: only what is not destroyed is destroyed, no thread is in what is
over, and as long as the module is open, what functions on the stack and queries need is
usable. -/
structure Guarded (s : State) : Prop where
  shape : Shaped s.closed s.stack
  reachable : ∀ (d : ℕ) x g, s.threads[d]? = some (x, g) → Database.system.Reachable x
  ending : ∀ d ∈ s.ending, ∀ x, s.threads[d]? ≠ some (x, true)
  stopped : ∀ (d : ℕ) x g, s.threads[d]? = some (x, g) → s.Over d g → x.Stopped
  stage : ∀ d stage delete below, s.stack = .destroying d stage delete :: below →
    ∀ x g, s.threads[d]? = some (x, g) → stage.Allows x
  used : s.closed = false → ∀ y ∈ s.stack, ∀ d, y.uses d = true → s.Usable d
  owned : s.closed = false → ∀ w ∈ s.owners, w.destroyed = false →
    w.reference ≠ 0 ∧ s.Usable w.database

lemma usable_of_live (hending : s.ending = []) {d : ℕ} {o : DatabaseObject}
    (ho : s.live d = some o) : s.Usable d := by
  obtain ⟨ho, hdestroyed⟩ := database_of_live ho
  refine ⟨by simp [hending], o.layer.database, ?_⟩
  rw [thread_of_database ho, hdestroyed]

lemma Usable.not_over {d : ℕ} {o : DatabaseObject} (h : s.Usable d) (hclosed : s.closed = false)
    (ho : s.databases[d]? = some o) : ¬ s.Over d o.destroyed := by
  obtain ⟨-, x, hx⟩ := h
  rw [thread_of_database ho] at hx
  have hdestroyed : o.destroyed = false := (Prod.mk.inj (Option.some.inj hx)).2
  rintro (hover | ⟨hover, -⟩)
  · exact absurd (hdestroyed.symm.trans hover) (by simp)
  · exact absurd (hclosed.symm.trans hover) (by simp)

/-- A step that destroys nothing, and begins to destroy nothing. -/
lemma Guarded.keep (hI : s.Guarded) (hclosed : t.closed = s.closed) (hending : t.ending = s.ending)
    (howners : ∀ w ∈ t.owners, w.destroyed = false →
      w ∈ s.owners ∨ w.reference ≠ 0 ∧ s.Usable w.database)
    (hthreads : ∀ (d : ℕ) x g, t.threads[d]? = some (x, g) →
      x = {} ∧ g = false ∨ ∃ y, s.threads[d]? = some (y, g) ∧
        (Database.system.Reachable y → Database.system.Reachable x) ∧
          (s.Over d g → y.Stopped → x.Stopped))
    (hexists : ∀ (d : ℕ) (y : Database.State) (g : Bool), s.threads[d]? = some (y, g) →
      ∃ x, t.threads[d]? = some (x, g))
    (hshape : Shaped s.closed t.stack)
    (huses : ∀ y ∈ t.stack, ∀ d, y.uses d = true →
      (∃ z ∈ s.stack, z.uses d = true) ∨ s.Usable d)
    (hstage : ∀ d stage delete below, t.stack = .destroying d stage delete :: below →
      ∀ x g, t.threads[d]? = some (x, g) → stage.Allows x) : t.Guarded := by
  have husable : ∀ d, s.Usable d → t.Usable d := by
    rintro d ⟨hnot, y, hy⟩
    exact ⟨hending ▸ hnot, hexists d y false hy⟩
  refine ⟨hclosed ▸ hshape, fun d x g hx => ?_, fun d hd x hx => ?_, fun d x g hx hover => ?_,
    hstage, fun hopen y hy d huse => ?_, fun hopen w hw hlive => ?_⟩
  · rcases hthreads d x g hx with ⟨rfl, -⟩ | ⟨y, hy, hreach, -⟩
    · exact .init
    · exact hreach (hI.reachable d y g hy)
  · rcases hthreads d x true hx with ⟨-, hfalse⟩ | ⟨y, hy, -⟩
    · cases hfalse
    · exact hI.ending d (hending ▸ hd) y hy
  · have hover : s.Over d g := by
      unfold Over at hover ⊢
      rwa [hclosed, hending] at hover
    rcases hthreads d x g hx with ⟨rfl, -⟩ | ⟨y, hy, -, hstop⟩
    · exact ⟨rfl, .inl rfl⟩
    · exact hstop hover (hI.stopped d y g hy hover)
  · rcases huses y hy d huse with ⟨z, hz, huse⟩ | huse
    · exact husable d (hI.used (hclosed ▸ hopen) z hz d huse)
    · exact husable d huse
  · rcases howners w hw hlive with hw | hw
    · exact (hI.owned (hclosed ▸ hopen) w hw hlive).imp_right (husable _)
    · exact hw.imp_right (husable _)

/-- Nothing happens to the databases, and the stack changes. -/
lemma Guarded.restack (hI : s.Guarded) (hclosed : t.closed = s.closed)
    (hending : t.ending = s.ending)
    (howners : ∀ w ∈ t.owners, w.destroyed = false →
      w ∈ s.owners ∨ w.reference ≠ 0 ∧ s.Usable w.database)
    (hthreads : t.threads = s.threads) (hshape : Shaped s.closed t.stack)
    (huses : ∀ y ∈ t.stack, ∀ d, y.uses d = true →
      (∃ z ∈ s.stack, z.uses d = true) ∨ s.Usable d)
    (hstage : ∀ d stage delete below, t.stack = .destroying d stage delete :: below →
      ∀ x g, s.threads[d]? = some (x, g) → stage.Allows x) : t.Guarded := by
  refine hI.keep hclosed hending howners (fun d x g hx => ?_) (fun d y g hy => ?_) hshape huses
    fun d stage delete below hstack x g hx => hstage d stage delete below hstack x g (hthreads ▸ hx)
  · exact .inr ⟨x, hthreads ▸ hx, id, fun _ h => h⟩
  · exact ⟨y, hthreads ▸ hy⟩

/-- The layer of a database moves. -/
lemma Guarded.move (hI : s.Guarded) {d : ℕ} {o : DatabaseObject} {a : Lua.Action}
    {layer : Lua.State} (ho : s.databases[d]? = some o)
    (hlayer : Lua.machine.next o.layer a = some layer)
    (hclosed : t.closed = s.closed) (hending : t.ending = s.ending) (howners : t.owners = s.owners)
    (hthreads : t.threads = (s.setLayer d layer).threads)
    (hstop : s.Over d o.destroyed → o.layer.database.Stopped → layer.database.Stopped)
    (hshape : Shaped s.closed t.stack)
    (huses : ∀ y ∈ t.stack, ∀ d, y.uses d = true →
      (∃ z ∈ s.stack, z.uses d = true) ∨ s.Usable d)
    (hstage : ∀ d stage delete below, t.stack = .destroying d stage delete :: below →
      ∀ x g, t.threads[d]? = some (x, g) → stage.Allows x) : t.Guarded := by
  refine hI.keep hclosed hending (fun w hw _ => .inl (howners ▸ hw)) (fun i x g hx => .inr ?_)
    (fun i y g hy => ?_) hshape huses hstage
  · rw [hthreads] at hx
    rcases thread_setLayer ho hx with ⟨rfl, rfl, rfl⟩ | ⟨-, hx⟩
    · refine ⟨_, thread_of_database ho, fun hr => ?_, hstop⟩
      rcases (Lua.step_of_next hlayer).database with hsame | ⟨b, -, hb⟩
      · exact hsame ▸ hr
      · exact .step hr trivial hb
    · exact ⟨x, hx, id, fun _ h => h⟩
  · rw [hthreads]
    exact exists_thread_setLayer hy

/-! ### The threads -/

/-- A thread goes on, or the main thread inside an operation of `Database`; an operation of
`onDestroyedByLua` may return. -/
lemma Guarded.advance (hI : s.Guarded) {d : ℕ} {o : DatabaseObject} {a : Lua.Action}
    {layer : Lua.State} (ho : s.databases[d]? = some o) (hlua : a ≠ .lua) (hcall : ∀ f, a ≠ .call f)
    (hlayer : Lua.machine.next o.layer a = some layer) (hclosed : t.closed = s.closed)
    (howners : t.owners = s.owners) (hthreads : t.threads = (s.setLayer d layer).threads)
    (hstack : t.stack = s.stack ∨ ∃ delete below completed,
      s.stack = .destroying d .aborting delete :: below ∧
        t.stack = .destroying d (.finishAborted completed) delete :: below) : t.Guarded := by
  have hsteps := keeps_of_thread hlua hcall hlayer
  have hending : t.ending = s.ending := by
    rcases hstack with hstack | ⟨_, _, _, hstack, hstack'⟩
    · rw [State.ending, State.ending, hstack]
    · rw [State.ending, State.ending, hstack, hstack']
      rfl
  have hshape : Shaped s.closed t.stack := by
    have hshape := hI.shape
    rcases hstack with hstack | ⟨_, _, _, hstack, hstack'⟩
    · rwa [hstack]
    · rw [hstack] at hshape
      rw [hstack']
      exact hshape.restage
  refine hI.move ho hlayer hclosed hending howners hthreads (fun _ => hsteps.1) hshape
    (fun y hy i huse => .inl ?_) fun i stage delete below htop x g hx => ?_
  · rcases hstack with hstack | ⟨_, _, _, hstack, hstack'⟩
    · exact ⟨y, hstack ▸ hy, huse⟩
    · rw [hstack'] at hy
      rcases List.mem_cons.1 hy with rfl | hy
      · cases huse
      · exact ⟨y, by simp [hstack, hy], huse⟩
  rcases hstack with hstack | ⟨_, _, _, -, hstack'⟩
  · rw [hthreads] at hx
    have hallows := hI.stage i stage delete below (hstack.symm.trans htop)
    rcases thread_setLayer ho hx with ⟨rfl, rfl, rfl⟩ | ⟨-, hx⟩
    · exact (hallows _ _ (thread_of_database ho)).mono hsteps.1 hsteps.2
    · exact hallows x g hx
  · obtain ⟨heq, -⟩ := List.cons.inj (hstack'.symm.trans htop)
    cases heq
    trivial

/-! ### The innermost function -/

lemma ending_of_stack {x : Entry} {below : List Entry} (hstack : s.stack = x :: below) :
    s.ending = x.ending ++ below.flatMap Entry.ending := by
  rw [ending, hstack, List.flatMap_cons]

/-- A function of user code is on top of the stack. -/
lemma Guarded.running (hI : s.Guarded) {x : Entry} {below : List Entry}
    (hstack : s.stack = x :: below) (hx : x.finalizes = false) :
    s.closed = false ∧ s.ending = [] ∧ ∀ y ∈ below, y.finalizes = false := by
  have hshape := hI.shape
  rw [hstack] at hshape
  obtain ⟨hclosed, hbelow⟩ := hshape.of_running hx
  refine ⟨hclosed, ?_, hbelow⟩
  rw [State.ending, hstack]
  exact ending_of_running (List.forall_mem_cons.2 ⟨hx, hbelow⟩)

/-- While the module is open and nothing is destroyed, functions of user code are on the stack. -/
lemma restack_running (hclosed : s.closed = false) (hending : s.ending = [])
    (hall : ∀ y ∈ t.stack, y.finalizes = false) :
    t.ending = s.ending ∧ Shaped s.closed t.stack ∧
      ∀ d stage delete below, t.stack ≠ .destroying d stage delete :: below := by
  refine ⟨?_, ?_, fun d stage delete below heq => ?_⟩
  · rw [hending]
    exact ending_of_running hall
  · rw [hclosed]
    exact .running hall
  · exact absurd (hall _ (heq ▸ List.mem_cons_self)) (by simp [Entry.finalizes])

/-- `onDestroyedByLua` returns, and a database that is to be deleted is deleted. -/
lemma Guarded.release (hI : s.Guarded) {d : ℕ} {delete : Bool} {below : List Entry}
    {o : DatabaseObject} (hstack : s.stack = .destroying d (.finishTaken []) delete :: below)
    (ho : s.databases[d]? = some o) :
    ({ s.modifyDatabase d fun o =>
        { o with tableReference := 0, destroyed := o.destroyed || delete } with
      registry := s.registry.release o.tableReference
      stack := below } : State).Guarded := by
  have hending : s.ending = d :: below.flatMap Entry.ending := ending_of_stack hstack
  have hstopped : o.layer.database.Stopped :=
    hI.stage d _ delete below hstack _ _ (thread_of_database ho)
  have hshape := hI.shape
  rw [hstack] at hshape
  have hcases := hshape.of_destroying
  have husable : ∀ i, s.Usable i → ({ s.modifyDatabase d fun o =>
        { o with tableReference := 0, destroyed := o.destroyed || delete } with
      registry := s.registry.release o.tableReference
      stack := below } : State).Usable i := by
    rintro i ⟨hnot, x, hx⟩
    rw [hending, List.mem_cons, not_or] at hnot
    exact ⟨hnot.2, x, (thread_modifyDatabase_of_ne hnot.1).trans hx⟩
  refine ⟨?_, fun i x g hx => ?_, fun i hi x hx => ?_, fun i x g hx hover => ?_,
    fun i stage delete' below' htop => ?_, fun hopen y hy i huse => ?_, fun hopen w hw hlive => ?_⟩
  · show Shaped s.closed below
    rcases hcases with ⟨-, hbelow, hclosed⟩ | ⟨-, hclosed, rest, rfl⟩
    · cases hc : s.closed with
      | false => exact .running hbelow
      | true =>
          rw [hclosed hc]
          exact .closed
    · rw [hclosed]
      exact .closing
  · rcases thread_modifyDatabase ho hx with ⟨-, heq⟩ | ⟨-, hx⟩
    · obtain ⟨rfl, -⟩ := Prod.mk.inj heq
      exact hI.reachable d o.layer.database o.destroyed (thread_of_database ho)
    · exact hI.reachable i x g hx
  · have hi : i ∈ below.flatMap Entry.ending := hi
    rcases hcases with ⟨-, hbelow, -⟩ | ⟨rfl, -, -⟩
    · rw [ending_of_running hbelow] at hi
      cases hi
    · rcases thread_modifyDatabase ho hx with ⟨rfl, heq⟩ | ⟨-, hx⟩
      · obtain ⟨-, hdestroyed⟩ := Prod.mk.inj heq
        have hdestroyed : o.destroyed = true := by simpa using hdestroyed
        refine hI.ending i (by simp [hending]) o.layer.database ?_
        rw [thread_of_database ho, hdestroyed]
      · exact hI.ending i (hending ▸ List.mem_cons_of_mem d hi) x hx
  · rcases thread_modifyDatabase ho hx with ⟨-, heq⟩ | ⟨hne, hx⟩
    · obtain ⟨rfl, -⟩ := Prod.mk.inj heq
      exact hstopped
    · refine hI.stopped i x g hx (hover.imp_right fun hover => ⟨hover.1, ?_⟩)
      rw [hending, List.mem_cons, not_or]
      exact ⟨hne, hover.2⟩
  · have htop : below = .destroying i stage delete' :: below' := htop
    rcases hcases with ⟨-, hbelow, -⟩ | ⟨-, -, rest, hrest⟩
    · exact absurd (hbelow _ (htop ▸ List.mem_cons_self)) (by simp [Entry.finalizes])
    · exact absurd (htop.symm.trans hrest) (by simp)
  · exact husable i (hI.used hopen y (by simp [hstack, show y ∈ below from hy]) i huse)
  · exact (hI.owned hopen w hw hlive).imp_right (husable _)

/-- `onDestroyedByLua` goes on. -/
lemma Guarded.destroying (hI : s.Guarded) {d : ℕ} {stage : DestroyStage} {delete : Bool}
    {below : List Entry} {o : DatabaseObject} (hidle : s.idle = true)
    (hstack : s.stack = .destroying d stage delete :: below) (ho : s.databases[d]? = some o)
    (h : s.destroy o d delete below stage = some t) : t.Guarded := by
  have hending := ending_of_stack hstack
  have hnot : ¬ s.Over d o.destroyed := by
    rintro (hover | ⟨-, hover⟩)
    · exact hI.ending d (by simp [hending, Entry.ending]) _ (hover ▸ thread_of_database ho)
    · exact hover (by simp [hending, Entry.ending])
  have huses : ∀ stage', ∀ y ∈ Entry.destroying d stage' delete :: below, ∀ i, y.uses i = true →
      (∃ z ∈ s.stack, z.uses i = true) ∨ s.Usable i := by
    intro stage' y hy i huse
    rcases List.mem_cons.1 hy with rfl | hy
    · cases huse
    · exact .inl ⟨y, by simp [hstack, hy], huse⟩
  have hshape : ∀ stage', Shaped s.closed (.destroying d stage' delete :: below) := by
    intro stage'
    have hshape := hI.shape
    rw [hstack] at hshape
    exact hshape.restage
  have hallows := hI.stage d stage delete below hstack _ _ (thread_of_database ho)
  have hreachable := hI.reachable d _ _ (thread_of_database ho)
  -- an operation of `Database` begins
  have hoperation : ∀ {m : Database.Call} {layer : Lua.State} {stage' : DestroyStage},
      o.layer.step (.call m) = some layer →
        (Database.system.next o.layer.database (.call m) = some layer.database →
          stage'.Allows layer.database) →
          ({ s.setLayer d layer with stack := .destroying d stage' delete :: below } :
            State).Guarded := by
    intro m layer stage' hlayer hallows'
    obtain ⟨x, hx, rfl⟩ := Lua.State.step_eq_some.1 hlayer
    refine hI.keep rfl (by rw [hending]; rfl) (fun w hw _ => .inl hw) (fun i y g hy => .inr ?_)
      (fun i y g hy => ?_) (hshape stage') (huses stage')
      fun i stage'' delete' below' htop y g hy => ?_
    · rcases thread_setLayer ho hy with ⟨rfl, rfl, rfl⟩ | ⟨-, hy⟩
      · exact ⟨_, thread_of_database ho, fun hr => .step hr trivial hx, fun h => absurd h hnot⟩
      · exact ⟨y, hy, id, fun _ h => h⟩
    · exact exists_thread_setLayer hy
    · obtain ⟨heq, -⟩ := List.cons.inj htop
      cases heq
      rcases thread_setLayer ho hy with ⟨-, rfl, -⟩ | ⟨hne, -⟩
      · exact hallows' hx
      · exact absurd rfl hne
  -- an execution is finished
  have hfinish : ∀ {e : Execution} {stage' : DestroyStage}, stage'.Allows o.layer.database →
      ({ s.finishLuaQueryData d e with stack := .destroying d stage' delete :: below } :
        State).Guarded := by
    intro e stage' hallows'
    have hsame := same_finishLuaQueryData (s := s) d e
    refine hI.restack hsame.closed (by rw [hending]; rfl)
      (fun w hw _ => .inl (owners_finishLuaQueryData d e ▸ hw)) hsame.threads (hshape stage')
      (huses stage') fun i stage'' delete' below' htop y g hy => ?_
    obtain ⟨heq, -⟩ := List.cons.inj htop
    cases heq
    have heq := (thread_of_database ho).symm.trans hy
    obtain ⟨rfl, -⟩ := Prod.mk.inj (Option.some.inj heq)
    exact hallows'
  cases stage with
  | abortAllQueries =>
      obtain ⟨layer, hlayer, rfl⟩ := Option.map_eq_some_iff.1 h
      exact hoperation hlayer fun _ => trivial
  | aborting => cases h
  | finishAborted todo =>
      cases todo with
      | nil =>
          obtain ⟨layer, hlayer, rfl⟩ := Option.map_eq_some_iff.1 h
          exact hoperation hlayer fun hnext => Database.State.joining_of_disconnect hreachable hnext
      | cons e todo =>
          obtain rfl := Option.some.inj h
          exact hfinish trivial
  | disconnecting =>
      obtain ⟨layer, hlayer, rfl⟩ := Option.map_eq_some_iff.1 h
      have hstopped : o.layer.database.Stopped :=
        Database.State.Joining.stopped hallows (idle_database hidle ho)
      exact hoperation hlayer fun hnext => hstopped.takeFinished hnext
  | finishTaken todo =>
      cases todo with
      | nil =>
          obtain rfl := Option.some.inj h
          exact hI.release hstack ho
      | cons e todo =>
          obtain rfl := Option.some.inj h
          exact hfinish hallows

/-- The innermost function goes on. -/
lemma Guarded.go (hI : s.Guarded) (hidle : s.idle = true) (h : s.go = some t) : t.Guarded := by
  cases goStep_of_go h with
  | @function d loc below o f frames effect f' layer u hstack ho hframes hnext hlayer hu hafter =>
      obtain ⟨hclosed, hending, hbelow⟩ := hI.running hstack rfl
      have habove : ∀ y ∈ (f'.map fun _ => Entry.function d (s.perform d loc effect).2).toList,
          ∃ loc', y = .function d loc' := by
        intro y hy
        obtain ⟨g, -, rfl⟩ := Option.map_eq_some_iff.1 (Option.mem_toList.1 hy)
        exact ⟨_, rfl⟩
      obtain ⟨hending', hshape, htop⟩ := restack_running (t := { (s.perform d loc effect).1.setLayer
        d layer with stack := (f'.map fun _ => Entry.function d (s.perform d loc effect).2).toList ++
          below }) hclosed hending fun y hy => by
            rcases List.mem_append.1 hy with hy | hy
            · obtain ⟨loc', rfl⟩ := habove y hy
              rfl
            · exact hbelow y hy
      have husable := hI.used hclosed (.function d loc) (by simp [hstack]) d (decide_eq_true rfl)
      refine hI.move ho hlayer (stack_perform d loc effect).2 hending' (owners_perform d loc effect)
        ?_ (fun hover => absurd hover (husable.not_over hclosed ho)) hshape
        (fun y hy i huse => .inl ?_) fun i stage delete below heq => absurd heq (htop _ _ _ _)
      · show ((s.perform d loc effect).1.setLayer d layer).threads = _
        rw [threads_setLayer, threads_setLayer, threads_perform]
      · rcases List.mem_append.1 hy with hy | hy
        · obtain ⟨loc', rfl⟩ := habove y hy
          exact ⟨.function d loc, by simp [hstack], huse⟩
        · exact ⟨y, by simp [hstack, hy], huse⟩
  | @hooksDone below hstack =>
      obtain ⟨hclosed, hending, hbelow⟩ := hI.running hstack rfl
      obtain ⟨hending', hshape, htop⟩ :=
        restack_running (t := { s with stack := below }) hclosed hending hbelow
      exact hI.restack rfl hending' (fun w hw _ => .inl hw) rfl hshape
        (fun y hy i huse => .inl ⟨y, by simp [hstack, show y ∈ below from hy], huse⟩)
        fun i stage delete below heq => absurd heq (htop _ _ _ _)
  | @hook d reference rest below o layer hstack ho hlayer =>
      obtain ⟨hclosed, hending, hbelow⟩ := hI.running hstack rfl
      obtain ⟨hending', hshape, htop⟩ := restack_running (t := { s.setLayer d layer with
        registry := s.registry.free reference
        stack := .function d .none :: .thinkHooks rest :: below }) hclosed hending fun y hy => by
          rcases List.mem_cons.1 hy with rfl | hy
          · rfl
          · rcases List.mem_cons.1 hy with rfl | hy
            · rfl
            · exact hbelow y hy
      have huse : (Entry.thinkHooks ((d, reference) :: rest)).uses d = true := by simp [Entry.uses]
      have husable := hI.used hclosed (.thinkHooks ((d, reference) :: rest)) (by simp [hstack]) d huse
      refine hI.move ho hlayer rfl hending' rfl rfl
        (fun hover => absurd hover (husable.not_over hclosed ho)) hshape
        (fun y hy i huse => .inl ?_) fun i stage delete below heq => absurd heq (htop _ _ _ _)
      rcases List.mem_cons.1 hy with rfl | hy
      · obtain rfl : d = i := of_decide_eq_true huse
        exact ⟨.thinkHooks ((d, reference) :: rest), by simp [hstack], by simp [Entry.uses]⟩
      rcases List.mem_cons.1 hy with rfl | hy
      · refine ⟨.thinkHooks ((d, reference) :: rest), by simp [hstack], ?_⟩
        rw [Entry.uses, List.any_cons]
        exact Bool.or_eq_true_iff.2 (.inr huse)
      · exact ⟨y, by simp [hstack, hy], huse⟩
  | @destroying d stage delete below o t hstack ho ht =>
      simp only [State.go, hstack, ho, Option.bind_some] at h
      exact hI.destroying hidle hstack ho h
  | @shutdownDone below hstack =>
      have hshape := hI.shape
      rw [hstack] at hshape
      obtain ⟨hclosed, rfl⟩ := hshape.of_shutdownAll
      refine hI.restack rfl (ending_of_stack hstack).symm (fun w hw _ => .inl hw) rfl ?_
        (fun y hy => absurd hy List.not_mem_nil)
        fun i stage delete below heq => absurd heq.symm (List.cons_ne_nil _ _)
      rw [hclosed]
      exact .closed
  | @shutdown d rest below hstack =>
      have hshape := hI.shape
      rw [hstack] at hshape
      obtain ⟨hclosed, rfl⟩ := hshape.of_shutdownAll
      refine hI.restack rfl (ending_of_stack hstack).symm (fun w hw _ => .inl hw) rfl ?_
        (fun y hy i huse => ?_) fun i stage delete below heq x g hx => ?_
      · rw [hclosed]
        exact .shuttingDown
      · have hy : y ∈ [Entry.destroying d .abortAllQueries false, .shutdownAll rest] := hy
        simp only [List.mem_cons, List.not_mem_nil, or_false] at hy
        rcases hy with rfl | rfl <;> cases huse
      · obtain ⟨heq, -⟩ := List.cons.inj heq
        cases heq
        trivial

/-! ### What user code does -/

/-- User code runs while the module is open and nothing is destroyed. -/
lemma Guarded.user (hI : s.Guarded) (huser : s.inUserCode = true) :
    s.closed = false ∧ s.ending = [] ∧ ∀ y ∈ s.stack, y.finalizes = false := by
  obtain ⟨hclosed, htop⟩ := Bool.and_eq_true_iff.1 huser
  have hclosed : s.closed = false := by simpa using hclosed
  cases hstack : s.stack with
  | nil => exact ⟨hclosed, by rw [State.ending, hstack]; rfl, nofun⟩
  | cons x below =>
      have hx : x.finalizes = false := by
        rw [hstack] at htop
        cases x with
        | function => rfl
        | thinkHooks | destroying | shutdownAll => cases htop
      obtain ⟨-, hending, hbelow⟩ := hI.running hstack hx
      exact ⟨hclosed, hending, List.forall_mem_cons.2 ⟨hx, hbelow⟩⟩

lemma usable_of_liveDatabases (hending : s.ending = []) {d : ℕ} (hd : d ∈ s.liveDatabases) :
    s.Usable d := by
  obtain ⟨o, ho⟩ := Option.isSome_iff_exists.1 (List.mem_filter.1 hd).2
  exact usable_of_live hending ho

lemma owners_referenceCallbacks (queries : List (ℕ × ℕ)) (r : Registry) :
    ({ s.addStaged queries with registry := r } : State).owners = s.owners :=
  owners_addStaged queries

/-- What `start` does to the query and its database, once the data is built. -/
lemma owners_started {q d : ℕ} {data : Data} {f : DatabaseObject → DatabaseObject} (u : State) :
    ((u.addQueryData q data).modifyDatabase d f).owners = u.owners :=
  owners_modifyQuery (s := u) (q := q)
    (f := fun x => { x with runningQueryData := x.runningQueryData ++ [data] }) fun _ => rfl

lemma threads_started {q d : ℕ} {data : Data} {layer : Lua.State} {x : ExecutionData} (u : State) :
    ((u.addQueryData q data).modifyDatabase d fun o =>
      { o with layer := layer, executions := o.executions ++ [x] }).threads =
        (u.setLayer d layer).threads :=
  threads_modifyDatabase (s := u)
    (f := fun o => { o with layer := layer, executions := o.executions ++ [x] })
    (g := fun o => { o with layer := layer }) (fun _ => rfl) d

lemma Guarded.call (hI : s.Guarded) (huser : s.inUserCode = true) {f : Call}
    (h : CallStep s f t) : t.Guarded := by
  obtain ⟨hclosed, hending, hrunning⟩ := hI.user huser
  have hsame : ∀ {t : State}, t.stack = s.stack → t.ending = s.ending ∧ Shaped s.closed t.stack ∧
      ∀ d stage delete below, t.stack ≠ .destroying d stage delete :: below :=
    fun hstack => restack_running hclosed hending (hstack ▸ hrunning)
  -- what leaves the databases and the stack as they are
  have hkeep : ∀ {t : State}, s.Same t → (∀ w ∈ t.owners, w.destroyed = false →
      w ∈ s.owners ∨ w.reference ≠ 0 ∧ s.Usable w.database) → t.Guarded := by
    intro t hst howners
    obtain ⟨hending', hshape, htop⟩ := hsame hst.stack
    exact hI.restack hst.closed hending' howners hst.threads hshape
      (fun y hy i huse => .inl ⟨y, hst.stack ▸ hy, huse⟩)
      fun i stage delete below heq => absurd heq (htop _ _ _ _)
  cases h with
  | create =>
      obtain ⟨hending', hshape, htop⟩ := hsame (t := { s with databases := s.databases ++ [{}] }) rfl
      have hthreads : ({ s with databases := s.databases ++ [{}] } : State).threads =
          s.threads ++ [(({} : Database.State), false)] := List.map_append
      refine hI.keep rfl hending' (fun w hw _ => .inl hw) (fun d x g hx => ?_) (fun d y g hy => ?_)
        hshape (fun y hy i huse => .inl ⟨y, hy, huse⟩)
        fun i stage delete below heq => absurd heq (htop _ _ _ _)
      · rw [hthreads] at hx
        by_cases hd : d < s.threads.length
        · rw [List.getElem?_append_left hd] at hx
          exact .inr ⟨x, hx, id, fun _ h => h⟩
        · rw [List.getElem?_append_right (by omega)] at hx
          have hmem := List.mem_of_getElem? hx
          obtain ⟨rfl, rfl⟩ := Prod.mk.inj (List.mem_singleton.1 hmem)
          exact .inl ⟨rfl, rfl⟩
      · rw [hthreads]
        exact ⟨y, (List.getElem?_append_left (List.getElem?_eq_some_iff.1 hy).1).trans hy⟩
  | @query d isTransaction o ho =>
      refine hkeep ⟨rfl, rfl, rfl⟩ fun w hw _ => ?_
      have howners : ({ s with
          registry := s.registry.create
          queries := s.queries ++ [{
            database := d
            isTransaction := isTransaction
            databaseReference := s.registry.fresh }] } : State).owners =
          s.owners ++ [⟨d, s.registry.fresh, false⟩] := List.map_append
      rw [howners] at hw
      rcases List.mem_append.1 hw with hw | hw
      · exact .inl hw
      · obtain rfl := List.mem_singleton.1 hw
        exact .inr ⟨Nat.succ_ne_zero _, usable_of_live hending ho⟩
  | @addQuery u q x y hx hy ht hq =>
      refine hkeep ⟨rfl, rfl, rfl⟩ fun w hw _ => .inl ?_
      rwa [← owners_modifyQuery (s := s) (q := u) (f := fun x => { x with
        addedQueries := x.addedQueries ++ [⟨s.registry.fresh, q, s.stagedCount⟩] }) fun _ => rfl]
  | addQueryThrows => exact hI
  | @clearQueries u =>
      exact hkeep (same_clearAddedQueries u) fun w hw _ => .inl (owners_clearAddedQueries u ▸ hw)
  | @startThrows q fields x o queries e =>
      have hbuilt := same_referenceCallbacks (s := s) queries (referenceCallbacks s.registry fields).2
      refine hkeep (hbuilt.trans ((same_finishData q (.execution e) _).trans ⟨rfl, rfl, rfl⟩))
        fun w hw _ => .inl ?_
      have hw := owners_finishData q (.execution e) _ ▸ hw
      rwa [owners_referenceCallbacks] at hw
  | @start q fields x o queries e layer hx ho hqueries he hstarted hlayer =>
      have hbuilt := same_referenceCallbacks (s := s) queries (referenceCallbacks s.registry fields).2
      obtain ⟨hquery, hlive⟩ := query_of_live hx
      have howner : x.owner ∈ s.owners := List.mem_map_of_mem (List.mem_of_getElem? hquery)
      have husable : s.Usable x.database := (hI.owned hclosed x.owner howner hlive).2
      obtain ⟨hending', hshape, htop⟩ := hsame hbuilt.stack
      refine hI.move ho hlayer hbuilt.closed hending' ?_ ?_
        (fun hover => absurd hover (husable.not_over hclosed ho)) hshape
        (fun y hy i huse => .inl ⟨y, hbuilt.stack ▸ hy, huse⟩)
        fun i stage delete below heq => absurd heq (htop _ _ _ _)
      · exact (owners_started _).trans (owners_referenceCallbacks queries _)
      · rw [threads_setLayer, ← hbuilt.threads, ← threads_setLayer]
        exact threads_started _
  | getData => exact hkeep ⟨rfl, rfl, rfl⟩ fun w hw _ => .inl hw
  | @connect d o layer ho hlayer =>
      have husable := usable_of_live hending ho
      have ho := (database_of_live ho).1
      have hreference : (s.referenceTable d o).threads = s.threads ∧
          (s.referenceTable d o).owners = s.owners ∧ (s.referenceTable d o).stack = s.stack ∧
            (s.referenceTable d o).closed = s.closed := by
        unfold referenceTable
        split
        · exact ⟨map_modify_eq fun _ _ => rfl, rfl, rfl, rfl⟩
        · exact ⟨rfl, rfl, rfl, rfl⟩
      obtain ⟨hthreads, howners, hstack, hclosed'⟩ := hreference
      obtain ⟨hending', hshape, htop⟩ := hsame (t := (s.referenceTable d o).setLayer d layer) hstack
      refine hI.move ho hlayer hclosed' hending' howners ?_
        (fun hover => absurd hover (husable.not_over hclosed ho)) hshape
        (fun y hy i huse => .inl ⟨y, hstack ▸ hy, huse⟩)
        fun i stage delete below heq => absurd heq (htop _ _ _ _)
      rw [threads_setLayer, threads_setLayer, hthreads]
  | @database d f o layer stack ho hf hlayer hstack =>
      have husable := usable_of_live hending ho
      have ho := (database_of_live ho).1
      have hmem : ∀ y ∈ stack, y = .function d .none ∨ y ∈ s.stack := by
        rcases hstack with ⟨rfl, -⟩ | ⟨g, rfl, -⟩
        · exact fun y hy => .inr hy
        · exact fun y hy => List.mem_cons.1 hy
      obtain ⟨hending', hshape, htop⟩ :=
        restack_running (t := { s.setLayer d layer with stack := stack }) hclosed hending
          fun y hy => by
            rcases hmem y hy with rfl | hy
            · rfl
            · exact hrunning y hy
      refine hI.move ho hlayer rfl hending' rfl rfl
        (fun hover => absurd hover (husable.not_over hclosed ho)) hshape
        (fun y hy i huse => ?_) fun i stage delete below heq => absurd heq (htop _ _ _ _)
      rcases hmem y hy with rfl | hy
      · obtain rfl : d = i := of_decide_eq_true huse
        exact .inr husable
      · exact .inl ⟨y, hy, huse⟩
  | @thinkHooks order horder =>
      obtain ⟨hending', hshape, htop⟩ :=
        restack_running (t := s.referenceDatabases order) hclosed hending
          (List.forall_mem_cons.2 ⟨rfl, hrunning⟩)
      refine hI.restack rfl hending' (fun w hw _ => .inl hw) rfl hshape (fun y hy i huse => ?_)
        fun i stage delete below heq => absurd heq (htop _ _ _ _)
      rcases List.mem_cons.1 hy with rfl | hy
      · -- the hook refers to databases that are not destroyed
        obtain ⟨hook, hhook, heq⟩ := List.any_eq_true.1 huse
        obtain rfl : hook.1 = i := of_decide_eq_true heq
        have horder := horder.subset (List.of_mem_zip hhook).1
        exact .inr (usable_of_liveDatabases hending horder)
      · exact .inl ⟨y, hy, huse⟩

/-! ### Destruction -/

lemma owners_destroyQuery {q : ℕ} {x : QueryObject} {w : Owner}
    (hw : w ∈ (s.destroyQuery q x).owners) (hlive : w.destroyed = false) : w ∈ s.owners := by
  rw [← owners_clearAddedQueries (s := s) q]
  obtain ⟨y, hy, rfl⟩ := List.mem_map.1 hw
  obtain ⟨i, hi⟩ := List.mem_iff_getElem?.1 hy
  have hi : ((s.clearAddedQueries q).queries.modify q fun x =>
    { x with databaseReference := 0, destroyed := true })[i]? = some y := hi
  rw [List.getElem?_modify] at hi
  obtain ⟨z, hz, rfl⟩ := Option.map_eq_some_iff.1 hi
  by_cases hq : q = i
  · simp [hq, QueryObject.owner] at hlive
  · simp only [hq, if_false]
    exact List.mem_map_of_mem (List.mem_of_getElem? hz)

/-- Lua destroys a query. -/
lemma Guarded.collectQuery (hI : s.Guarded) {q : ℕ} {x : QueryObject} :
    (s.destroyQuery q x).Guarded := by
  have hsame : s.Same (s.destroyQuery q x) :=
    (same_clearAddedQueries (s := s) q).trans ⟨rfl, rfl, rfl⟩
  refine hI.restack hsame.closed ?_ (fun w hw hlive => .inl (owners_destroyQuery hw hlive))
    hsame.threads ?_ (fun y hy i huse => .inl ⟨y, hsame.stack ▸ hy, huse⟩)
    fun i stage delete below heq y g hy => ?_
  · rw [State.ending, State.ending, hsame.stack]
  · rw [hsame.stack]
    exact hI.shape
  · exact hI.stage i stage delete below (hsame.stack.symm.trans heq) y g hy

/-- No finalizer runs over another one. -/
lemma Guarded.not_finalizing (hI : s.Guarded) (h : s.finalizing = false) :
    (∀ y ∈ s.stack, y.finalizes = false) ∧ (s.closed = true → s.stack = []) := by
  cases hstack : s.stack with
  | nil => exact ⟨nofun, fun _ => rfl⟩
  | cons x below =>
      have hx : x.finalizes = false := by
        rw [finalizing, hstack] at h
        cases x with
        | function | thinkHooks => rfl
        | destroying | shutdownAll => cases h
      obtain ⟨hclosed, -, hbelow⟩ := hI.running hstack hx
      refine ⟨List.forall_mem_cons.2 ⟨hx, hbelow⟩, fun hopen => ?_⟩
      exact absurd (hclosed.symm.trans hopen) (by simp)

/-- Lua begins to destroy a database; the garbage collector only one that nothing refers to. -/
lemma Guarded.collectDatabase (hI : s.Guarded) (hfinalizing : s.finalizing = false) {d : ℕ}
    {o : DatabaseObject} (ho : s.live d = some o)
    (hpinned : s.closed = true ∨ s.pinned d o = false) :
    (s.push (.destroying d .abortAllQueries true)).Guarded := by
  obtain ⟨hall, hempty⟩ := hI.not_finalizing hfinalizing
  obtain ⟨hdatabase, hdestroyed⟩ := database_of_live ho
  have hending : s.ending = [] := ending_of_running hall
  have hending' : (s.push (.destroying d .abortAllQueries true)).ending = [d] :=
    congrArg (d :: ·) hending
  -- what the collector found out
  have hfree : s.closed = false →
      (∀ w ∈ s.owners, w.reference ≠ 0 → w.database ≠ d) ∧ ∀ y ∈ s.stack, y.uses d = false := by
    intro hopen
    have hpinned := hpinned.resolve_left (by simp [hopen])
    simp only [pinned, Bool.or_eq_false_iff, List.any_eq_false, decide_eq_false_iff_not] at hpinned
    obtain ⟨⟨-, hqueries⟩, hstack⟩ := hpinned
    refine ⟨fun w hw hne heq => ?_, fun y hy => by simpa using hstack y hy⟩
    obtain ⟨x, hx, rfl⟩ := List.mem_map.1 hw
    exact hqueries x hx (by simpa using ⟨heq, hne⟩)
  have husable : ∀ i, i ≠ d → s.Usable i →
      (s.push (.destroying d .abortAllQueries true)).Usable i := by
    rintro i hne ⟨-, x, hx⟩
    rw [Usable, hending']
    exact ⟨by simpa using hne, x, hx⟩
  refine ⟨.collecting hall hempty, hI.reachable, fun i hi x hx => ?_, fun i x g hx hover => ?_,
    fun i stage delete below htop x g hx => ?_, fun hopen y hy i huse => ?_,
    fun hopen w hw hlive => ?_⟩
  · rw [hending'] at hi
    obtain rfl := List.mem_singleton.1 hi
    have hx : s.threads[i]? = some (x, true) := hx
    rw [thread_of_database hdatabase, hdestroyed] at hx
    simp at hx
  · exact hI.stopped i x g hx (hover.imp_right fun hover => ⟨hover.1, by simp [hending]⟩)
  · obtain ⟨heq, -⟩ := List.cons.inj htop
    cases heq
    trivial
  · rcases List.mem_cons.1 hy with rfl | hmem
    · cases huse
    · refine husable i ?_ (hI.used hopen y hmem i huse)
      rintro rfl
      exact absurd (huse.symm.trans ((hfree hopen).2 y hmem)) (by simp)
  · obtain ⟨hne, huse⟩ := hI.owned hopen w hw hlive
    exact ⟨hne, husable _ ((hfree hopen).1 w hw hne) huse⟩

lemma mem_liveDatabases {i : ℕ} {x : Database.State} (hx : s.threads[i]? = some (x, false)) :
    i ∈ s.liveDatabases := by
  rw [threads, List.getElem?_map] at hx
  obtain ⟨o, ho, heq⟩ := Option.map_eq_some_iff.1 hx
  have hdestroyed : o.destroyed = false := (Prod.mk.inj heq).2
  refine List.mem_filter.2 ⟨List.mem_range.2 (List.getElem?_eq_some_iff.1 ho).1, ?_⟩
  simp [live, ho, hdestroyed]

/-- The module is closed: every database that was not destroyed is to be shut down. -/
lemma Guarded.close (hI : s.Guarded) (hstack : s.stack = []) {order : List ℕ}
    (horder : order.Perm s.liveDatabases) :
    ({ s with closed := true, stack := [.shutdownAll order] } : State).Guarded := by
  have hending : s.ending = [] := by
    rw [State.ending, hstack]
    rfl
  have hlive : ∀ i ∈ order, ∃ x, s.threads[i]? = some (x, false) :=
    fun i hi => (usable_of_liveDatabases hending (horder.subset hi)).2
  have hending' : ({ s with closed := true, stack := [.shutdownAll order] } : State).ending =
      order := List.append_nil order
  refine ⟨.closing, hI.reachable, fun i hi x hx => ?_, fun i x g hx hover => ?_, nofun, nofun, nofun⟩
  · obtain ⟨y, hy⟩ := hlive i (hending' ▸ hi)
    have hx : s.threads[i]? = some (x, true) := hx
    rw [hy] at hx
    simp at hx
  · rw [Over, hending'] at hover
    have hx : s.threads[i]? = some (x, g) := hx
    rcases hover with hover | ⟨-, hnot⟩
    · exact hI.stopped i x g hx (.inl hover)
    · cases g with
      | true => exact hI.stopped i x true hx (.inl rfl)
      | false => exact absurd (horder.symm.subset (mem_liveDatabases hx)) hnot

lemma guarded_init : ({} : State).Guarded where
  shape := .running fun _ hy => absurd hy List.not_mem_nil
  reachable _ _ _ hx := by cases hx
  ending _ hd := absurd hd List.not_mem_nil
  stopped _ _ _ hx := by cases hx
  stage _ _ _ _ hstack := by cases hstack
  used _ _ hy := absurd hy List.not_mem_nil
  owned _ _ hw := absurd hw List.not_mem_nil

theorem guarded_of_reach (h : machine.Reach C s) : s.Guarded := by
  refine h.invariant (I := Guarded) guarded_init fun s t a hr hI _ hnext => ?_
  cases step_of_next hnext with
  | @thread a d o b layer ha ho hlayer =>
      refine hI.advance ho ?_ ?_ hlayer rfl rfl rfl (.inl rfl)
      · rcases ha with ⟨c, -, rfl⟩ | ⟨-, rfl⟩ <;> simp
      · rcases ha with ⟨c, -, rfl⟩ | ⟨-, rfl⟩ <;> simp
  | @main d c o layer ho hlayer =>
      obtain ⟨hthreads, howners, hclosed, hstack⟩ := afterMain_spec (s := s.setLayer d layer) d
        o.layer.database.mainPC layer.database.mainPC
      exact hI.advance (a := .main c) ho (by simp) (by simp) hlayer hclosed howners hthreads hstack
  | go hidle =>
      have hnext : (if s.idle then s.go else none) = some t := hnext
      rw [if_pos hidle] at hnext
      exact hI.go hidle hnext
  | call hidle huser hcall => exact hI.call huser hcall
  | collectQuery => exact hI.collectQuery
  | collectDatabase hidle hfinalizing ho hpinned => exact hI.collectDatabase hfinalizing ho hpinned
  | @close order hidle hstack hclosed =>
      have horder : order.Perm s.liveDatabases := by
        by_contra hnot
        simp [machine, hnot] at hnext
      exact hI.close hstack horder

lemma live_of_usable {d : ℕ} (h : s.Usable d) : ∃ o, s.live d = some o := by
  obtain ⟨-, x, hx⟩ := h
  exact Option.isSome_iff_exists.1 (List.mem_filter.1 (mem_liveDatabases hx)).2

/-- No step of a thread is possible in a database that no thread is in. -/
lemma no_step_of_stopped {d : ℕ} {o : DatabaseObject} (ho : s.databases[d]? = some o)
    (h : o.layer.database.Stopped) (c : Choice) :
    machine.next s (.worker d c) = none ∧ machine.next s (.main d c) = none := by
  refine ⟨Option.eq_none_iff_forall_ne_some.2 fun t ht => ?_,
    Option.eq_none_iff_forall_ne_some.2 fun t ht => ?_⟩
  · obtain ⟨o', ho', ht⟩ := Option.bind_eq_some_iff.1 ht
    obtain rfl := Option.some.inj (ho.symm.trans ho')
    obtain ⟨layer, hlayer, -⟩ := Option.map_eq_some_iff.1 ht
    cases Lua.step_of_next hlayer with
    | environment hb hnext =>
        rcases hb with ⟨_, heq, rfl⟩ | ⟨heq, -⟩
        · cases Database.step_of_next hnext with
          | worker hpc => exact h.not_worker hpc
        · cases heq
  · obtain ⟨o', ho', ht⟩ := Option.bind_eq_some_iff.1 ht
    obtain rfl := Option.some.inj (ho.symm.trans ho')
    obtain ⟨layer, hlayer, -⟩ := Option.map_eq_some_iff.1 ht
    cases Lua.step_of_next hlayer with
    | environment hb => rcases hb with ⟨_, heq, -⟩ | ⟨heq, -⟩ <;> cases heq
    | main hpc => exact hpc h.1

end State

open State

/-- **No thread outlives its database.**  Whatever user code, the garbage collector, the closing
of the module and the threads of all databases do: once a database was destroyed, or was shut
down when the module was closed, its worker thread was never started or has ended, and no thread
makes a step in it; and as long as the module is open, the databases that the functions on the
stack still use were not destroyed, nor were those of the queries that were not. -/
theorem no_thread_outlives {C : State → Action → Prop} {s : State} (h : machine.Reach C s) :
    (∀ d o, s.databases[d]? = some o → s.Over d o.destroyed → o.layer.database.Stopped ∧
      ∀ c, machine.next s (.worker d c) = none ∧ machine.next s (.main d c) = none) ∧
      (s.closed = false →
        (∀ y ∈ s.stack, ∀ d, y.uses d = true → ∃ o, s.live d = some o) ∧
          ∀ x ∈ s.queries, x.destroyed = false → ∃ o, s.live x.database = some o) := by
  have hI := guarded_of_reach h
  refine ⟨fun d o ho hover => ?_, fun hopen => ⟨fun y hy d huse => ?_, fun x hx hlive => ?_⟩⟩
  · have hstopped := hI.stopped d _ _ (thread_of_database ho) hover
    exact ⟨hstopped, no_step_of_stopped ho hstopped⟩
  · exact live_of_usable (hI.used hopen y hy d huse)
  · exact live_of_usable (hI.owned hopen x.owner (List.mem_map_of_mem hx) hlive).2

set_option maxRecDepth 4000 in
theorem no_thread_outlives_closedRun :
    ∃ s o, machine.run machine.init closedRun = some s ∧ s.databases[0]? = some o ∧
      o.destroyed = true ∧ o.layer.database.workerPC = .ended ∧ o.layer.database.Stopped ∧
        ∀ c, machine.next s (.worker 0 c) = none ∧ machine.next s (.main 0 c) = none := by
  have hend : (machine.run machine.init closedRun).bind (fun s => s.databases[0]?.map fun o =>
      (o.destroyed, o.layer.database.workerPC)) = some (true, .ended) := rfl
  obtain ⟨s, hs, hend⟩ := Option.bind_eq_some_iff.1 hend
  obtain ⟨o, ho, hend⟩ := Option.map_eq_some_iff.1 hend
  obtain ⟨hdestroyed, hended⟩ := Prod.mk.inj hend
  exact ⟨s, o, hs, ho, hdestroyed, hended,
    (no_thread_outlives (reachable_of_run hs)).1 0 o ho (.inl hdestroyed)⟩

end GmsvPg.Objects
