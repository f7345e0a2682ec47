/-
# The databases that are in use

The main thread is in functions of a database only while the database is alive: it was not
destroyed, and nothing is about to destroy it.  As long as that is so, the layer of the database
has made a run of its own, and there is a reference to the table of the database exactly when
the layer says so.
-/
import GmsvPg.Lua.Release
import GmsvPg.Objects.References

namespace GmsvPg.Objects

open Library Machine
open Database (Execution Choice MainPC)

/-! ### The databases that are in use -/

/-- What the stack says about a database, from the innermost function on. -/
inductive Mark
  | function (loc : Local)
  | hook
  | destroying
deriving DecidableEq, Repr

def Entry.marks (d : ℕ) : Entry → List Mark
  | .function d' loc => if d' = d then [.function loc] else []
  | .thinkHooks rest => (rest.filter fun hook => decide (hook.1 = d)).map fun _ => .hook
  | .destroying d' _ _ => if d' = d then [.destroying] else []
  | .shutdownAll _ => []

/-- The locals of the functions that a mark stands for. -/
def Mark.loc : Mark → Option Local
  | .function loc => some loc
  | _ => none

/-- What of a database decides about its table. -/
structure Core where
  layer : Lua.State := {}
  tableReference : ℕ := 0
  destroyed : Bool := false

def DatabaseObject.core (o : DatabaseObject) : Core := ⟨o.layer, o.tableReference, o.destroyed⟩

/-- `onDestroyedByLua` and `shutdownAll`. -/
def Entry.finalizes : Entry → Bool
  | .destroying _ _ _ | .shutdownAll _ => true
  | _ => false

/-- The callback of an execution is running. -/
def inCallback : Lua.Frame → Bool
  | .think (.inCallback _ _) _ => true
  | _ => false

/-- A local holds something only while the callback is running. -/
def Fits (loc : Local) (f : Lua.Frame) : Prop := loc.held = 0 ∨ inCallback f = true

/-- The database is alive, and nothing destroys it. -/
def Alive (marks : List Mark) (closed : Bool) (c : Core) : Prop :=
  closed = false ∧ c.destroyed = false ∧ .destroying ∉ marks

/-- The layer of a database that is alive has made a run of its own, has a table if there is a
reference to it, and is in the functions that the stack says. -/
structure Core.Sound (c : Core) (marks : List Mark) : Prop where
  reach : Lua.machine.Reach Lua.Unnested c.layer
  table : c.layer.tableReference = decide (c.tableReference ≠ 0)
  frames : List.Forall₂ Fits (marks.filterMap Mark.loc) c.layer.frames

/-- Finalizers run when the module is closed, or when the garbage collector destroys a database;
this comes to an end before user code goes on. -/
structure Ordered (closed : Bool) (stack : List Entry) : Prop where
  closing : ∀ x ∈ stack, x.finalizes = true → closed = true ∨ ∃ d stage, x = .destroying d stage true
  tidy : ∀ x ∈ stack.tail, x.finalizes = true → closed = true

/-- The main thread is in functions of a database that is alive only. -/
def Fine (marks : List Mark) (closed : Bool) (c : Option Core) : Prop :=
  (∀ x, c = some x → Alive marks closed x → x.Sound marks) ∧
    ((∀ x, c = some x → ¬ Alive marks closed x) → ∀ m ∈ marks, m = .destroying)

lemma Ordered.below {closed : Bool} {x : Entry} {below : List Entry}
    (h : Ordered closed (x :: below)) : Ordered closed below :=
  ⟨fun y hy => h.closing y (List.mem_cons_of_mem x hy),
    fun y hy => h.tidy y (List.mem_of_mem_tail hy)⟩

lemma Ordered.push {closed : Bool} {x : Entry} {stack : List Entry} (h : Ordered closed stack)
    (hx : x.finalizes = true → closed = true ∨ ∃ d stage, x = .destroying d stage true)
    (hbelow : ∀ y ∈ stack, y.finalizes = true → closed = true) : Ordered closed (x :: stack) := by
  refine ⟨fun y hy => ?_, hbelow⟩
  rcases List.mem_cons.1 hy with rfl | hy
  · exact hx
  · exact h.closing y hy

lemma Ordered.replace {closed : Bool} {x y : Entry} {below : List Entry}
    (h : Ordered closed (x :: below))
    (hy : y.finalizes = true → closed = true ∨ ∃ d stage, y = .destroying d stage true) :
    Ordered closed (y :: below) := h.below.push hy h.tidy

lemma fine_some {marks : List Mark} {closed : Bool} {c : Core} :
    Fine marks closed (some c) ↔ (Alive marks closed c → c.Sound marks) ∧
      (¬ Alive marks closed c → ∀ m ∈ marks, m = .destroying) := by
  simp [Fine]

/-- The main thread is in a function of the database, so the database is alive. -/
lemma Fine.alive {marks : List Mark} {closed : Bool} {c : Core} (h : Fine marks closed (some c))
    {m : Mark} (hm : m ∈ marks) (hne : m ≠ .destroying) : Alive marks closed c := by
  by_contra hdead
  exact hne ((fine_some.1 h).2 hdead m hm)

/-- The layer moves, and the stack says the same. -/
lemma Fine.move {marks : List Mark} {closed : Bool} {c c' : Core} (h : Fine marks closed (some c))
    (hdestroyed : c'.destroyed = c.destroyed) (hsound : c.Sound marks → c'.Sound marks) :
    Fine marks closed (some c') := by
  have halive : Alive marks closed c' ↔ Alive marks closed c := by
    rw [Alive, Alive, hdestroyed]
  rw [fine_some] at h ⊢
  rw [halive]
  exact ⟨fun ha => hsound (h.1 ha), h.2⟩

/-- Whatever happens to a database that is not alive. -/
lemma Fine.dead {marks marks' : List Mark} {closed closed' : Bool} {c c' : Core}
    (h : Fine marks closed (some c)) (hdead : ¬ Alive marks closed c)
    (hdead' : ¬ Alive marks' closed' c') (hmarks : ∀ m ∈ marks', m ∈ marks ∨ m = .destroying) :
    Fine marks' closed' (some c') := by
  rw [fine_some] at h ⊢
  refine ⟨fun ha => absurd ha hdead', fun _ m hm => ?_⟩
  exact (hmarks m hm).elim (h.2 hdead m) id

/-- The condition on a step under which references are balanced: `think` does not get to its
last block inside `onDisconnected` of the database. -/
def State.nests (s : State) : Action → Bool
  | .go =>
      match s.stack with
      | .function d _ :: _ => s.databases[d]?.any fun o => o.layer.nests .lua
      | _ => false
  | _ => false

def Unnested (s : State) (a : Action) : Prop := s.nests a = false

instance (s : State) (a : Action) : Decidable (Unnested s a) :=
  inferInstanceAs (Decidable (_ = false))

namespace State

variable {C : State → Action → Prop} {s t : State}

def marks (s : State) (d : ℕ) : List Mark := s.stack.flatMap (Entry.marks d)

def cores (s : State) : List Core := s.databases.map DatabaseObject.core

/-- Each database is in the state that the stack says. -/
structure Runs (s : State) : Prop where
  ordered : Ordered s.closed s.stack
  fine : ∀ d, Fine (s.marks d) s.closed s.cores[d]?

/-! ### What the operations leave unchanged of the databases -/

/-- What `Runs` is about is left as it is. -/
structure Same (s t : State) : Prop where
  cores : t.cores = s.cores
  stack : t.stack = s.stack
  closed : t.closed = s.closed

lemma Same.refl (s : State) : s.Same s := ⟨rfl, rfl, rfl⟩

lemma Same.trans {u : State} (h : s.Same t) (h' : t.Same u) : s.Same u :=
  ⟨h'.cores.trans h.cores, h'.stack.trans h.stack, h'.closed.trans h.closed⟩

lemma Same.marks (h : s.Same t) (d : ℕ) : t.marks d = s.marks d := by
  rw [State.marks, State.marks, h.stack]

lemma Same.runs (h : s.Same t) (hI : s.Runs) : t.Runs := by
  refine ⟨?_, fun d => ?_⟩
  · rw [h.stack, h.closed]
    exact hI.ordered
  · rw [h.marks, h.closed, h.cores]
    exact hI.fine d

/-- A change of a database, as `Runs` sees it. -/
lemma cores_modifyDatabase {f : DatabaseObject → DatabaseObject} {g : Core → Core}
    (hf : ∀ o, (f o).core = g o.core) (d : ℕ) :
    (s.modifyDatabase d f).cores = s.cores.modify d g := by
  refine List.ext_getElem? fun i => ?_
  rw [cores, cores, modifyDatabase, List.getElem?_map, List.getElem?_modify, List.getElem?_modify,
    List.getElem?_map]
  by_cases hi : d = i
  · cases s.databases[i]? <;> simp [hi, hf]
  · cases s.databases[i]? <;> simp [hi]

/-- A change of a database that `Runs` does not see. -/
lemma same_modifyDatabase {f : DatabaseObject → DatabaseObject} (hf : ∀ o, (f o).core = o.core)
    (d : ℕ) : s.Same (s.modifyDatabase d f) := by
  refine ⟨?_, rfl, rfl⟩
  rw [cores_modifyDatabase (g := id) hf, List.modify_id]

lemma same_finishData (q : ℕ) (data : Data) (x : ExecutionData) :
    s.Same (s.finishData q data x) := by
  rw [finishData_eq]
  exact ⟨rfl, rfl, rfl⟩

lemma same_finishLuaQueryData (d : ℕ) (e : Execution) : s.Same (s.finishLuaQueryData d e) := by
  unfold finishLuaQueryData
  split
  · exact .refl s
  · refine (same_finishData e.query (.execution e) _).trans (same_modifyDatabase ?_ d)
    exact fun _ => rfl

lemma same_clearAddedQueries (u : ℕ) : s.Same (s.clearAddedQueries u) := by
  unfold clearAddedQueries
  split <;> exact ⟨rfl, rfl, rfl⟩

lemma same_endCallback (d : ℕ) (e : Execution) (loc : Local) : s.Same (s.endCallback d e loc) := by
  cases loc with
  | transaction =>
      show s.Same (s.clearAddedQueriesFromCallbackTable d e)
      unfold clearAddedQueriesFromCallbackTable
      split
      · exact same_clearAddedQueries e.query
      · exact .refl s
  | _ => exact ⟨rfl, rfl, rfl⟩

lemma same_pushResults {α : Type} (l : List α) : s.Same (l.foldl (fun s _ => s.pushResults) s) := by
  induction l generalizing s with
  | nil => exact .refl s
  | cons a l ih => exact Same.trans (t := s.pushResults) ⟨rfl, rfl, rfl⟩ ih

lemma same_runCallback (d : ℕ) (e : Execution) : s.Same (s.runCallback d e).1 := by
  unfold runCallback
  split
  · simp only
    split
    · exact .refl s
    · split
      · exact .refl s
      · exact .refl s
      · split
        · split
          · exact .refl s
          · exact same_pushResults _
        · exact ⟨rfl, rfl, rfl⟩
  · exact .refl s

/-- A function of the layer changes of the databases the reference to a table at most. -/
lemma same_perform {d : ℕ} {loc : Local} {effect : Lua.Effect} (h : effect ≠ .think .freeTable) :
    s.Same (s.perform d loc effect).1 := by
  cases effect with
  | think effect =>
      cases effect with
      | freeTable => exact absurd rfl h
      | runCallback p => exact same_runCallback d p.execution
      | finishQueryData p =>
          exact (same_endCallback d p.execution loc).trans (same_finishLuaQueryData d p.execution)
      | _ => exact .refl s
  | finishAborted e => exact (same_endCallback d e loc).trans (same_finishLuaQueryData d e)
  | _ => exact .refl s

end State

/-! ### The layer of a database -/

lemma inCallback_collect (es : List Execution) (f : Lua.Frame) :
    inCallback (f.collect es) = inCallback f := by
  cases f <;> rfl

lemma fits_modifyHead {locs : List Local} {frames : List Lua.Frame} (es : List Execution)
    (h : List.Forall₂ Fits locs frames) :
    List.Forall₂ Fits locs (frames.modifyHead (Lua.Frame.collect es)) := by
  cases h with
  | nil => exact .nil
  | cons hfirst hrest =>
      refine .cons ?_ hrest
      rw [Fits, inCallback_collect]
      exact hfirst

namespace Core.Sound

variable {c : Core} {marks : List Mark} {layer : Lua.State}

/-- The threads, and the main thread inside an operation of `Database`. -/
lemma thread (h : c.Sound marks) {a : Lua.Action} (hlua : a ≠ .lua) (hcall : ∀ f, a ≠ .call f)
    (hlayer : Lua.machine.next c.layer a = some layer) :
    ({ c with layer := layer } : Core).Sound marks := by
  have hreach : Lua.machine.Reach Lua.Unnested layer := by
    refine .step h.reach ?_ hlayer
    cases a with
    | lua => exact absurd rfl hlua
    | _ => rfl
  refine ⟨hreach, ?_, ?_⟩
  · refine Eq.trans ?_ h.table
    cases Lua.step_of_next hlayer with
    | environment => rfl
    | main => exact Lua.State.afterMain_tableReference _
    | lua => exact absurd rfl hlua
    | call => exact absurd rfl (hcall _)
  · cases Lua.step_of_next hlayer with
    | environment => exact h.frames
    | main =>
        rcases Lua.State.afterMain_frames (s := c.layer.withDatabase _ _)
          c.layer.database.mainPC with hframes | ⟨es, hframes⟩
        · exact hframes ▸ h.frames
        · exact hframes ▸ fits_modifyHead es h.frames
    | lua => exact absurd rfl hlua
    | call => exact absurd rfl (hcall _)

/-- A call of another function than `connect`. -/
lemma call (h : c.Sound marks) {f : Lua.Call} (hf : f ≠ .connect)
    (hlayer : Lua.machine.next c.layer (.call f) = some layer) {marks' : List Mark}
    (hmarks : layer.frames = c.layer.frames ∧ marks' = marks ∨
      ∃ g, layer.frames = g :: c.layer.frames ∧ marks' = .function .none :: marks) :
    ({ c with layer := layer } : Core).Sound marks' := by
  refine ⟨.step (a := .call f) h.reach rfl hlayer, ?_, ?_⟩
  · refine Eq.trans ?_ h.table
    cases Lua.step_of_next hlayer with
    | environment hb => rcases hb with ⟨_, hb, -⟩ | ⟨hb, -⟩ <;> cases hb
    | call hidle huser hcall =>
        cases Lua.callStep_of_call hcall with
        | connect => exact absurd rfl hf
        | begin | start | waitQuery | enter | throw => rfl
  · rcases hmarks with ⟨hframes, rfl⟩ | ⟨g, hframes, rfl⟩
    · exact hframes ▸ h.frames
    · show List.Forall₂ Fits (.none :: marks.filterMap Mark.loc) layer.frames
      rw [hframes]
      exact .cons (.inl rfl) h.frames

/-- `connect`, which has taken a reference to the table. -/
lemma connect (h : c.Sound marks) {n : ℕ} (hn : n ≠ 0)
    (hlayer : Lua.machine.next c.layer (.call .connect) = some layer) :
    ({ c with layer := layer, tableReference := n } : Core).Sound marks := by
  refine ⟨.step (a := .call .connect) h.reach rfl hlayer, ?_, ?_⟩
  · show layer.tableReference = decide (n ≠ 0)
    rw [decide_eq_true hn]
    cases Lua.step_of_next hlayer with
    | environment hb => rcases hb with ⟨_, hb, -⟩ | ⟨hb, -⟩ <;> cases hb
    | call hidle huser hcall =>
        obtain ⟨u, hu, rfl⟩ := Lua.State.step_eq_some.1 hcall
        rfl
  · rw [(frames_of_call hlayer).2 rfl]
    exact h.frames

/-- The innermost function. -/
lemma lua {loc loc' : Local} {f : Lua.Frame} {frames : List Lua.Frame} {effect : Lua.Effect}
    {f' : Option Lua.Frame} {u : Lua.State} (h : c.Sound (.function loc :: marks))
    (hC : Lua.Unnested c.layer .lua) (hframes : c.layer.frames = f :: frames)
    (hlayer : Lua.machine.next c.layer .lua = some layer) (hu : c.layer.perform effect = some u)
    (hafter : layer = { u with frames := f'.toList ++ frames })
    (hfits : ∀ g, f' = some g → Fits loc' g) :
    ({ c with
      layer := layer
      tableReference := if effect = .think .freeTable then 0 else c.tableReference } : Core).Sound
      ((f'.map fun _ => Mark.function loc').toList ++ marks) := by
  refine ⟨.step h.reach hC hlayer, ?_, ?_⟩
  · show layer.tableReference = _
    rw [hafter]
    show u.tableReference = _
    rw [(Lua.State.performed hu).tableReference, h.table]
    by_cases heffect : effect = .think .freeTable <;> simp [heffect]
  · have hbelow : List.Forall₂ Fits (marks.filterMap Mark.loc) frames := by
      have hall := h.frames
      rw [hframes] at hall
      exact (List.forall₂_cons.1 hall).2
    rw [hafter]
    cases f' with
    | none => exact hbelow
    | some g => exact .cons (hfits g rfl) hbelow

end Core.Sound

/-- A local holds something from `runCallback` to the end of the callback. -/
lemma fits_perform {s : State} {d : ℕ} {loc : Local} {v : Lua.ThinkView Lua.Put} {f : Lua.Frame}
    {effect : Lua.Effect} {f' : Option Lua.Frame} (h : f.Moves v effect f') (hloc : Fits loc f) :
    (loc.held = 0 ∨ ∃ p, effect = .think (.finishQueryData p)) ∧
      (∀ g, f' = some g → Fits (s.perform d loc effect).2 g) ∧
        (f' = none → (s.perform d loc effect).2.held = 0) := by
  cases h with
  | runCallback =>
      refine ⟨.inl (hloc.resolve_right (by simp [inCallback])), ?_, by simp⟩
      rintro g hg
      obtain rfl := Option.some.inj hg
      exact .inr rfl
  | callbackReturn =>
      refine ⟨.inr ⟨_, rfl⟩, ?_, by simp⟩
      exact fun g _ => .inl rfl
  | runAborted =>
      refine ⟨.inl (hloc.resolve_right (by simp [inCallback])), ?_, by simp⟩
      exact fun g _ => .inl (State.held_localOf _)
  | abortedReturn =>
      refine ⟨.inl (hloc.resolve_right (by simp [inCallback])), ?_, by simp⟩
      exact fun g _ => .inl rfl
  | _ =>
      have hzero : loc.held = 0 := hloc.resolve_right (by simp [inCallback])
      exact ⟨.inl hzero, fun g _ => .inl hzero, fun _ => hzero⟩

namespace State

variable {C : State → Action → Prop} {s t : State}

/-- The condition on the layer that moves. -/
lemma Unnested.layer (h : Unnested s .go) {d : ℕ} {loc : Local} {below : List Entry}
    {o : DatabaseObject} (hstack : s.stack = .function d loc :: below)
    (ho : s.databases[d]? = some o) : Lua.Unnested o.layer .lua := by
  simpa [Unnested, nests, hstack, ho, Lua.Unnested] using h

/-- One database moves, and what the stack says about it changes. -/
lemma Runs.touch (hI : s.Runs) {d : ℕ} {c c' : Core} {g : Core → Core} (hc : s.cores[d]? = some c)
    (hcores : t.cores = s.cores.modify d g) (hg : g c = c') (hclosed : t.closed = s.closed)
    (hothers : ∀ d', d' ≠ d → t.marks d' = s.marks d')
    (hd : Fine (s.marks d) s.closed (some c) → Fine (t.marks d) s.closed (some c')) :
    ∀ d', Fine (t.marks d') t.closed t.cores[d']? := by
  intro d'
  rw [hclosed, hcores, List.getElem?_modify]
  by_cases hsame : d = d'
  · subst hsame
    have hfine := hI.fine d
    rw [hc] at hfine ⊢
    show Fine (t.marks d) s.closed (some (if d = d then g c else c))
    rw [if_pos rfl, hg]
    exact hd hfine
  · rw [hothers d' (Ne.symm hsame)]
    have hfine := hI.fine d'
    simpa [hsame] using hfine

lemma core_of_database {d : ℕ} {o : DatabaseObject} (ho : s.databases[d]? = some o) :
    s.cores[d]? = some o.core := by
  rw [cores, List.getElem?_map, ho]
  rfl

lemma marks_of_stack {x : Entry} {below : List Entry} (hstack : s.stack = x :: below) (d : ℕ) :
    s.marks d = x.marks d ++ below.flatMap (Entry.marks d) := by
  rw [marks, hstack, List.flatMap_cons]

lemma finalizes_of_destroying {d : ℕ} (h : .destroying ∈ s.marks d) :
    ∃ x ∈ s.stack, x.finalizes = true := by
  obtain ⟨x, hx, hmark⟩ := List.mem_flatMap.1 h
  refine ⟨x, hx, ?_⟩
  cases x with
  | function d' loc =>
      simp only [Entry.marks] at hmark
      split at hmark <;> simp at hmark
  | thinkHooks rest => simp [Entry.marks] at hmark
  | destroying | shutdownAll => rfl

lemma database_of_live {d : ℕ} {o : DatabaseObject} (ho : s.live d = some o) :
    s.databases[d]? = some o ∧ o.destroyed = false := by
  obtain ⟨ho, hdestroyed⟩ := Option.filter_eq_some_iff.1 ho
  exact ⟨ho, by simpa using hdestroyed⟩

lemma query_of_live {q : ℕ} {x : QueryObject} (hx : s.liveQuery q = some x) :
    s.queries[q]? = some x ∧ x.destroyed = false := by
  obtain ⟨hx, hdestroyed⟩ := Option.filter_eq_some_iff.1 hx
  exact ⟨hx, by simpa using hdestroyed⟩

/-- No finalizer is running while user code is. -/
lemma Runs.user (hI : s.Runs) (huser : s.inUserCode = true) :
    s.closed = false ∧ ∀ x ∈ s.stack, x.finalizes = false := by
  obtain ⟨hclosed, htop⟩ := Bool.and_eq_true_iff.1 huser
  have hclosed : s.closed = false := by simpa using hclosed
  refine ⟨hclosed, fun x hx => ?_⟩
  by_contra hfinalizes
  have hfinalizes := Bool.eq_true_of_not_eq_false hfinalizes
  cases hstack : s.stack with
  | nil => simp [hstack] at hx
  | cons y below =>
      rw [hstack] at hx htop
      rcases List.mem_cons.1 hx with rfl | hx
      · cases x with
        | function => cases hfinalizes
        | thinkHooks => cases htop
        | destroying => cases htop
        | shutdownAll => cases htop
      · have hall := hI.ordered.tidy x (by rwa [hstack]) hfinalizes
        exact absurd (hclosed.symm.trans hall) (by simp)

lemma Runs.alive (hI : s.Runs) (huser : s.inUserCode = true) {d : ℕ} {o : DatabaseObject}
    (hdestroyed : o.destroyed = false) : Alive (s.marks d) s.closed o.core := by
  refine ⟨(hI.user huser).1, hdestroyed, fun hmark => ?_⟩
  obtain ⟨x, hx, hfinalizes⟩ := finalizes_of_destroying hmark
  exact absurd (hfinalizes.symm.trans ((hI.user huser).2 x hx)) (by simp)

lemma cores_setLayer (d : ℕ) (layer : Lua.State) :
    (s.setLayer d layer).cores = s.cores.modify d fun c => { c with layer := layer } :=
  cores_modifyDatabase (fun _ => rfl) d

/-- The layer of a database moves, and the stack says the same. -/
lemma Runs.setLayer (hI : s.Runs) {d : ℕ} {o : DatabaseObject} {layer : Lua.State}
    (ho : s.databases[d]? = some o)
    (hsound : o.core.Sound (s.marks d) → ({ o.core with layer := layer } : Core).Sound (s.marks d)) :
    (s.setLayer d layer).Runs := by
  refine ⟨hI.ordered, ?_⟩
  refine hI.touch (core_of_database ho) (cores_setLayer d layer) rfl rfl (fun _ _ => rfl) ?_
  exact fun hfine => hfine.move rfl hsound

/-- The stack changes, and says the same of each database. -/
lemma Runs.restack (hI : s.Runs) {stack : List Entry} (hordered : Ordered s.closed stack)
    (hmarks : ∀ d, stack.flatMap (Entry.marks d) = s.marks d) :
    ({ s with stack := stack } : State).Runs := by
  refine ⟨hordered, fun d => ?_⟩
  show Fine (stack.flatMap (Entry.marks d)) s.closed s.cores[d]?
  rw [hmarks]
  exact hI.fine d

lemma Runs.afterMain (hI : s.Runs) (d : ℕ) (pc pc' : MainPC) : (s.afterMain d pc pc').Runs := by
  unfold State.afterMain
  split
  · have hsame := same_finishLuaQueryData (s := s) d
    exact Same.runs ⟨(hsame _).cores, (hsame _).stack, (hsame _).closed⟩ hI
  · split
    · exact Same.runs (s := s) ⟨rfl, rfl, rfl⟩ hI
    · exact hI
  · split
    · exact Same.runs (s := s) ⟨rfl, rfl, rfl⟩ hI
    · exact hI
  · split
    · exact Same.runs (s := s) ⟨rfl, rfl, rfl⟩ hI
    · exact hI
  · split
    · rename_i d' delete below hstack
      split
      · rename_i hd
        subst hd
        have hordered := hI.ordered
        rw [hstack] at hordered
        refine hI.restack (hordered.replace fun hfinalizes => ?_) fun d'' => ?_
        · refine (hordered.closing _ List.mem_cons_self hfinalizes).imp_right ?_
          rintro ⟨_, _, heq⟩
          cases heq
          exact ⟨_, _, rfl⟩
        · rw [marks_of_stack hstack]
          rfl
      · exact hI
    · exact hI
  · exact hI

/-- What the functions of a database leave of its fields. -/
lemma cores_function {d : ℕ} {o : DatabaseObject} (ho : s.databases[d]? = some o) (loc : Local)
    (effect : Lua.Effect) (layer : Lua.State) :
    ((s.perform d loc effect).1.setLayer d layer).cores = s.cores.modify d fun c =>
      { c with
        layer := layer
        tableReference := if effect = .think .freeTable then 0 else c.tableReference } := by
  rw [cores_setLayer]
  by_cases heffect : effect = .think .freeTable
  · subst heffect
    show (s.freeTable d).cores.modify d _ = _
    rw [freeTable, ho]
    show (s.modifyDatabase d _).cores.modify d _ = _
    rw [cores_modifyDatabase (g := fun c => { c with tableReference := 0 }) (fun _ => rfl),
      List.modify_modify_eq]
    rfl
  · rw [(same_perform heffect).cores]
    simp [heffect]

lemma stack_perform (d : ℕ) (loc : Local) (effect : Lua.Effect) :
    (s.perform d loc effect).1.stack = s.stack ∧ (s.perform d loc effect).1.closed = s.closed := by
  by_cases heffect : effect = .think .freeTable
  · subst heffect
    show (s.freeTable d).stack = s.stack ∧ (s.freeTable d).closed = s.closed
    unfold freeTable
    split <;> exact ⟨rfl, rfl⟩
  · exact ⟨(same_perform heffect).stack, (same_perform heffect).closed⟩

/-- A function of the layer goes on. -/
lemma Runs.function (hI : s.Runs) (hC : Unnested s .go) {d : ℕ} {loc : Local}
    {below : List Entry} {o : DatabaseObject} {f : Lua.Frame} {frames : List Lua.Frame}
    {effect : Lua.Effect} {f' : Option Lua.Frame} {layer u : Lua.State}
    (hstack : s.stack = .function d loc :: below) (ho : s.databases[d]? = some o)
    (hframes : o.layer.frames = f :: frames) (hnext : f.Moves o.layer.view effect f')
    (hlayer : Lua.machine.next o.layer .lua = some layer) (hu : o.layer.perform effect = some u)
    (hafter : layer = { u with frames := f'.toList ++ frames }) :
    ({ (s.perform d loc effect).1.setLayer d layer with
      stack := (f'.map fun _ => Entry.function d (s.perform d loc effect).2).toList ++ below } :
        State).Runs := by
  have hordered := hI.ordered
  rw [hstack] at hordered
  have hclosed := (stack_perform (s := s) d loc effect).2
  refine ⟨?_, ?_⟩
  · show Ordered (s.perform d loc effect).1.closed _
    rw [hclosed]
    cases f' with
    | none => exact hordered.below
    | some g => exact hordered.replace nofun
  -- what the stack says of the database, and of the others
  have hmarks : s.marks d = .function loc :: below.flatMap (Entry.marks d) := by
    rw [marks_of_stack hstack, Entry.marks, if_pos rfl]
    rfl
  have hmarks' : ((f'.map fun _ => Entry.function d (s.perform d loc effect).2).toList ++
      below).flatMap (Entry.marks d) =
        (f'.map fun _ => Mark.function (s.perform d loc effect).2).toList ++
          below.flatMap (Entry.marks d) := by
    cases f' <;> simp [Entry.marks]
  refine hI.touch (core_of_database ho) (cores_function ho loc effect layer) rfl hclosed
    (fun d' hd' => ?_) fun hfine => ?_
  · show List.flatMap (Entry.marks d') _ = _
    rw [marks_of_stack hstack]
    cases f' <;> simp [Entry.marks, hd'.symm]
  show Fine (List.flatMap (Entry.marks d) _) s.closed _
  rw [hmarks']
  have halive : Alive (s.marks d) s.closed o.core :=
    hfine.alive (m := .function loc) (by simp [hmarks]) (by simp)
  have hsound : o.core.Sound (s.marks d) := (fine_some.1 hfine).1 halive
  rw [hmarks] at hsound halive
  have hhead : Fits loc f := by
    have hall := hsound.frames
    rw [show o.core.layer.frames = f :: frames from hframes] at hall
    exact (List.forall₂_cons.1 hall).1
  have hfits := (fits_perform (s := s) (d := d) hnext hhead).2.1
  have hafter := hsound.lua (Unnested.layer hC hstack ho) hframes hlayer hu hafter hfits
  refine fine_some.2 ⟨fun _ => hafter, fun hdead => absurd ?_ hdead⟩
  refine ⟨halive.1, halive.2.1, fun hmem => halive.2.2 ?_⟩
  rcases List.mem_append.1 hmem with hmem | hmem
  · cases f' <;> simp at hmem
  · exact List.mem_cons_of_mem _ hmem

lemma think_enters {l layer : Lua.State} (h : Lua.machine.next l (.call .think) = some layer) :
    ∃ g, layer.frames = g :: l.frames := by
  cases Lua.step_of_next h with
  | environment hb => rcases hb with ⟨_, hb, -⟩ | ⟨hb, -⟩ <;> cases hb
  | call hidle huser hcall =>
      obtain rfl := Option.some.inj hcall
      exact ⟨_, rfl⟩

/-- `onDestroyedByLua` goes on, of a database that is not alive. -/
lemma Runs.destroying (hI : s.Runs) {d : ℕ} {stage : DestroyStage} {delete : Bool}
    {below : List Entry} {o : DatabaseObject} (hstack : s.stack = .destroying d stage delete :: below)
    (ho : s.databases[d]? = some o) (h : DestroyStep s o d delete below t) : t.Runs := by
  have hordered := hI.ordered
  rw [hstack] at hordered
  have hmarks : s.marks d = .destroying :: below.flatMap (Entry.marks d) := by
    rw [marks_of_stack hstack, Entry.marks, if_pos rfl]
    rfl
  have hdead : ¬ Alive (s.marks d) s.closed o.core := by
    rw [hmarks]
    exact fun halive => halive.2.2 List.mem_cons_self
  -- the finalizer stays on the stack
  have hstay : ∀ stage', Ordered s.closed (.destroying d stage' delete :: below) := by
    intro stage'
    refine hordered.replace fun hfinalizes => ?_
    refine (hordered.closing _ List.mem_cons_self hfinalizes).imp_right ?_
    rintro ⟨_, _, heq⟩
    cases heq
    exact ⟨_, _, rfl⟩
  have hmarks_eq : ∀ stage' d', List.flatMap (Entry.marks d') (.destroying d stage' delete :: below) =
      s.marks d' := by
    intro stage' d'
    rw [marks_of_stack hstack]
    rfl
  cases h with
  | @operation m layer stage' hm hlayer =>
      have hmoved := hI.touch (t := s.setLayer d layer) (core_of_database ho)
        (cores_setLayer d layer) rfl rfl (fun _ _ => rfl)
        fun hfine => hfine.dead hdead hdead fun m hm => .inl hm
      exact Runs.restack (s := s.setLayer d layer) ⟨hI.ordered, hmoved⟩ (hstay stage') (hmarks_eq stage')
  | @finish e stage' =>
      have hsame := same_finishLuaQueryData (s := s) d e
      refine (hsame.runs hI).restack ?_ fun d' => ?_
      · rw [hsame.closed]
        exact hstay stage'
      · rw [hsame.marks]
        exact hmarks_eq stage' d'
  | release =>
      refine ⟨hordered.below, ?_⟩
      refine hI.touch (g := fun c => { c with
          tableReference := 0
          destroyed := c.destroyed || delete }) (core_of_database ho)
        (cores_modifyDatabase (fun _ => rfl) d) rfl rfl (fun d' hd' => ?_) fun hfine => ?_
      · show below.flatMap (Entry.marks d') = s.marks d'
        rw [marks_of_stack hstack]
        simp [Entry.marks, hd'.symm]
      · refine hfine.dead hdead (fun halive => ?_) fun m hm => ?_
        · -- it is deleted, unless the module is being closed
          rcases hordered.closing _ List.mem_cons_self rfl with hclosed | ⟨_, _, heq⟩
          · exact absurd (halive.1.symm.trans hclosed) (by simp)
          · obtain rfl : delete = true := by
              cases heq
              rfl
            exact absurd (halive.2.1.symm.trans (Bool.or_true _)) (by simp)
        · rw [hmarks]
          exact .inl (List.mem_cons_of_mem _ hm)

lemma Runs.go (hI : s.Runs) (hC : Unnested s .go) (h : GoStep s t) : t.Runs := by
  have hordered := hI.ordered
  cases h with
  | function hstack ho hframes hnext hlayer hu hafter =>
      exact hI.function hC hstack ho hframes hnext hlayer hu hafter
  | @hooksDone below hstack =>
      rw [hstack] at hordered
      refine hI.restack hordered.below fun d => ?_
      rw [marks_of_stack hstack]
      rfl
  | @hook d reference rest below o layer hstack ho hlayer =>
      rw [hstack] at hordered
      have hmarks : s.marks d = .hook :: (Entry.thinkHooks rest).marks d ++
          below.flatMap (Entry.marks d) := by
        rw [marks_of_stack hstack]
        simp [Entry.marks]
      refine ⟨(hordered.replace (y := .thinkHooks rest) nofun).push nofun ?_, ?_⟩
      · exact fun x hx => (List.mem_cons.1 hx).elim (fun hx => by simp [hx, Entry.finalizes])
          (hordered.tidy x)
      refine hI.touch (core_of_database ho) (cores_setLayer d layer) rfl rfl (fun d' hd' => ?_)
        fun hfine => ?_
      · show List.flatMap (Entry.marks d') (_ :: _ :: below) = s.marks d'
        rw [marks_of_stack hstack]
        simp [Entry.marks, hd'.symm]
      · have halive : Alive (s.marks d) s.closed o.core :=
          hfine.alive (m := .hook) (by simp [hmarks]) (by simp)
        have hsound := (fine_some.1 hfine).1 halive
        have hmarks' : List.flatMap (Entry.marks d)
            (.function d .none :: .thinkHooks rest :: below) = .function .none ::
              ((Entry.thinkHooks rest).marks d ++ below.flatMap (Entry.marks d)) := by
          simp [Entry.marks]
        show Fine (List.flatMap (Entry.marks d) _) s.closed _
        rw [hmarks']
        rw [hmarks] at hsound halive
        have hrest : o.core.Sound ((Entry.thinkHooks rest).marks d ++
            below.flatMap (Entry.marks d)) := ⟨hsound.reach, hsound.table, hsound.frames⟩
        obtain ⟨g, hg⟩ := think_enters hlayer
        refine fine_some.2 ⟨fun _ => hrest.call (by simp) hlayer (.inr ⟨g, hg, rfl⟩),
          fun hdead => absurd ⟨halive.1, halive.2.1, fun hmem => ?_⟩ hdead⟩
        have hmem := (List.mem_cons.1 hmem).resolve_left (by simp)
        exact halive.2.2 (List.mem_cons_of_mem _ hmem)
  | destroying hstack ho ht => exact hI.destroying hstack ho ht
  | @shutdownDone below hstack =>
      rw [hstack] at hordered
      refine hI.restack hordered.below fun d => ?_
      rw [marks_of_stack hstack]
      rfl
  | @shutdown d rest below hstack =>
      rw [hstack] at hordered
      have hclosed : s.closed = true := by
        rcases hordered.closing _ List.mem_cons_self rfl with hclosed | ⟨_, _, heq⟩
        · exact hclosed
        · cases heq
      refine ⟨⟨fun _ _ _ => .inl hclosed, fun _ _ _ => hclosed⟩, fun d' => ?_⟩
      have hfine := hI.fine d'
      have hdead : ∀ ms c, ¬ Alive ms s.closed c := by
        intro ms c halive
        exact absurd (halive.1.symm.trans hclosed) (by simp)
      refine ⟨fun c _ halive => absurd halive (hdead _ c), fun _ m hm => ?_⟩
      by_cases hmem : m ∈ s.marks d'
      · exact hfine.2 (fun c _ => hdead _ c) m hmem
      · rw [marks_of_stack hstack] at hmem
        have hm : m ∈ List.flatMap (Entry.marks d')
            (.destroying d .abortAllQueries false :: .shutdownAll rest :: below) := hm
        rw [List.flatMap_cons, List.mem_append] at hm
        refine (hm.resolve_right hmem) |> fun hm => ?_
        simp only [Entry.marks] at hm
        split at hm
        · exact List.mem_singleton.1 hm
        · cases hm

/-! ### What user code does -/

lemma same_referenceCallbacks (queries : List (ℕ × ℕ)) (r : Registry) :
    s.Same { s.addStaged queries with registry := r } := by
  rw [addStaged_eq]
  exact ⟨rfl, rfl, rfl⟩

/-- A database is created. -/
lemma Runs.create (hI : s.Runs) :
    ({ s with databases := s.databases ++ [{}] } : State).Runs := by
  refine ⟨hI.ordered, fun d => ?_⟩
  have hcores : ({ s with databases := s.databases ++ [{}] } : State).cores =
      s.cores ++ [({} : Core)] := List.map_append
  show Fine (s.marks d) s.closed _
  rw [hcores]
  have hfine := hI.fine d
  rcases Nat.lt_trichotomy d s.cores.length with hd | hd | hd
  · rw [List.getElem?_append_left hd]
    exact hfine
  · subst hd
    have hnone : s.cores[s.cores.length]? = none := List.getElem?_eq_none (Nat.le_refl _)
    rw [hnone] at hfine
    have hall := hfine.2 (by simp)
    rw [List.getElem?_concat_length]
    refine fine_some.2 ⟨fun halive => ?_, fun _ => hall⟩
    -- no function is in the new database
    have hnil : s.marks s.cores.length = [] := by
      refine List.eq_nil_iff_forall_not_mem.2 fun m hm => halive.2.2 ?_
      rw [← hall m hm]
      exact hm
    rw [hnil]
    exact ⟨.init, rfl, .nil⟩
  · rw [List.getElem?_eq_none (by rw [List.length_append, List.length_singleton]; omega)]
    rw [List.getElem?_eq_none (by omega)] at hfine
    exact hfine

/-- An execution is started. -/
lemma Runs.start (hI : s.Runs) {q d : ℕ} {r : Registry} {queries : List (ℕ × ℕ)} {data : Data}
    {x : ExecutionData} {o : DatabaseObject} {layer : Lua.State} {children : ℕ}
    (ho : s.databases[d]? = some o)
    (hlayer : Lua.machine.next o.layer (.call (.start q children)) = some layer) :
    ((({ s.addStaged queries with registry := r } : State).addQueryData q data).modifyDatabase d
      fun o => { o with layer := layer, executions := o.executions ++ [x] }).Runs := by
  have hsame := same_referenceCallbacks (s := s) queries r
  have hbuilt := hsame.runs hI
  have hframes : layer.frames = o.layer.frames := by
    cases Lua.step_of_next hlayer with
    | environment hb => rcases hb with ⟨_, hb, -⟩ | ⟨hb, -⟩ <;> cases hb
    | call hidle huser hcall =>
        obtain ⟨v, hv, rfl⟩ := Option.map_eq_some_iff.1 hcall
        obtain ⟨u, hu, rfl⟩ := Lua.State.step_eq_some.1 hv
        rfl
  refine ⟨hbuilt.ordered, ?_⟩
  refine Runs.touch (s := { s.addStaged queries with registry := r }) hbuilt (c := o.core) ?_
    (cores_modifyDatabase (g := fun c => { c with layer := layer }) (fun _ => rfl) d) rfl rfl
    (fun _ _ => rfl) fun hfine => ?_
  · rw [hsame.cores]
    exact core_of_database ho
  · exact hfine.move rfl fun hsound => hsound.call (by simp) hlayer (.inl ⟨hframes, rfl⟩)

/-- `connect` is called. -/
lemma Runs.connect (hI : s.Runs) {d : ℕ} {o : DatabaseObject} {layer : Lua.State}
    (ho : s.databases[d]? = some o)
    (hlayer : Lua.machine.next o.layer (.call .connect) = some layer) :
    ((s.referenceTable d o).setLayer d layer).Runs := by
  unfold referenceTable
  split
  · refine ⟨hI.ordered, hI.touch (g := fun c => { c with
        layer := layer
        tableReference := s.registry.fresh }) (core_of_database ho) ?_ rfl rfl (fun _ _ => rfl)
      fun hfine => hfine.move rfl fun hsound => hsound.connect (Nat.succ_ne_zero _) hlayer⟩
    rw [cores_setLayer]
    show (s.modifyDatabase d _).cores.modify d _ = _
    rw [cores_modifyDatabase (g := fun c => { c with tableReference := s.registry.fresh })
      (fun _ => rfl), List.modify_modify_eq]
    rfl
  · rename_i hne
    exact hI.setLayer ho fun hsound => hsound.connect hne hlayer

/-- Another function of a database is called. -/
lemma Runs.database (hI : s.Runs) (huser : s.inUserCode = true) {d : ℕ} {f : Lua.Call}
    {o : DatabaseObject} {layer : Lua.State} {stack : List Entry} (ho : s.live d = some o)
    (hf : f ≠ .connect) (hlayer : Lua.machine.next o.layer (.call f) = some layer)
    (hstack : stack = s.stack ∧ layer.frames = o.layer.frames ∨
      ∃ g, stack = .function d .none :: s.stack ∧ layer.frames = g :: o.layer.frames) :
    ({ s.setLayer d layer with stack := stack } : State).Runs := by
  obtain ⟨ho, hdestroyed⟩ := database_of_live ho
  rcases hstack with ⟨rfl, hframes⟩ | ⟨g, rfl, hframes⟩
  · exact hI.setLayer ho fun hsound => hsound.call hf hlayer (.inl ⟨hframes, rfl⟩)
  · have halive : Alive (s.marks d) s.closed o.core := hI.alive huser hdestroyed
    refine ⟨hI.ordered.push nofun fun x hx hfinalizes => ?_, ?_⟩
    · exact absurd (hfinalizes.symm.trans ((hI.user huser).2 x hx)) (by simp)
    refine hI.touch (core_of_database ho) (cores_setLayer d layer) rfl rfl (fun d' hd' => ?_)
      fun hfine => ?_
    · show List.flatMap (Entry.marks d') (_ :: s.stack) = s.marks d'
      simp [Entry.marks, hd'.symm, marks]
    · have hmarks : List.flatMap (Entry.marks d) (.function d .none :: s.stack) =
          .function .none :: s.marks d := by
        simp [Entry.marks, marks]
      show Fine (List.flatMap (Entry.marks d) _) s.closed _
      rw [hmarks]
      have hsound := (fine_some.1 hfine).1 halive
      refine fine_some.2 ⟨fun _ => hsound.call hf hlayer (.inr ⟨g, hframes, rfl⟩),
        fun hdead => absurd ⟨halive.1, halive.2.1, fun hmem => ?_⟩ hdead⟩
      exact halive.2.2 ((List.mem_cons.1 hmem).resolve_left (by simp))

/-- The Think hook takes its references, to databases that are alive. -/
lemma Runs.thinkHooks (hI : s.Runs) (huser : s.inUserCode = true) {order : List ℕ}
    (horder : order.Perm s.liveDatabases) : (s.referenceDatabases order).Runs := by
  refine ⟨hI.ordered.push nofun fun x hx hfinalizes => ?_, fun d => ?_⟩
  · exact absurd (hfinalizes.symm.trans ((hI.user huser).2 x hx)) (by simp)
  have hfine := hI.fine d
  -- what the hook adds
  have hmarks : (s.referenceDatabases order).marks d =
      (Entry.thinkHooks (order.zip (List.range' s.registry.fresh order.length))).marks d ++
        s.marks d := rfl
  show Fine ((s.referenceDatabases order).marks d) s.closed s.cores[d]?
  rw [hmarks]
  generalize hhooks : (Entry.thinkHooks
    (order.zip (List.range' s.registry.fresh order.length))).marks d = hooks
  have hall : ∀ m ∈ hooks, m = .hook ∧ d ∈ order := by
    intro m hm
    rw [← hhooks] at hm
    obtain ⟨hook, hmem, rfl⟩ := List.mem_map.1 hm
    obtain ⟨hzip, hd⟩ := List.mem_filter.1 hmem
    obtain rfl : hook.1 = d := of_decide_eq_true hd
    exact ⟨rfl, (List.of_mem_zip hzip).1⟩
  have hnone : hooks.filterMap Mark.loc = [] :=
    List.filterMap_eq_nil_iff.2 fun m hm => by rw [(hall m hm).1]; rfl
  have halive : ∀ c, Alive (hooks ++ s.marks d) s.closed c ↔ Alive (s.marks d) s.closed c := by
    intro c
    have hdestroying : .destroying ∈ hooks ++ s.marks d ↔ .destroying ∈ s.marks d := by
      refine List.mem_append.trans ⟨fun h => h.resolve_left fun hmem => ?_, .inr⟩
      exact absurd (hall _ hmem).1 (by simp)
    rw [Alive, Alive, hdestroying]
  refine ⟨fun c hc ha => ?_, fun hdead m hm => ?_⟩
  · have hsound := hfine.1 c hc ((halive c).1 ha)
    refine ⟨hsound.reach, hsound.table, ?_⟩
    rw [List.filterMap_append, hnone]
    exact hsound.frames
  · rcases List.mem_append.1 hm with hm | hm
    · -- the hook refers to databases that are alive only
      have hlive := horder.subset (hall m hm).2
      obtain ⟨o, ho⟩ := Option.isSome_iff_exists.1 (List.mem_filter.1 hlive).2
      obtain ⟨ho, hdestroyed⟩ := database_of_live ho
      exact absurd ((halive o.core).2 (hI.alive huser hdestroyed))
        (hdead o.core (core_of_database ho))
    · exact hfine.2 (fun c hc ha => hdead c hc ((halive c).2 ha)) m hm

lemma Runs.call (hI : s.Runs) (huser : s.inUserCode = true) {f : Call} (h : CallStep s f t) :
    t.Runs := by
  cases h with
  | create => exact hI.create
  | query | addQuery | getData => exact Same.runs (s := s) ⟨rfl, rfl, rfl⟩ hI
  | addQueryThrows => exact hI
  | clearQueries => exact (same_clearAddedQueries _).runs hI
  | @startThrows q fields x o queries e =>
      have hbuilt := same_referenceCallbacks (s := s) queries (referenceCallbacks s.registry fields).2
      refine Same.runs (s := s) (hbuilt.trans ?_) hI
      exact (same_finishData q (.execution e) _).trans ⟨rfl, rfl, rfl⟩
  | start hx ho hqueries he hstarted hlayer => exact hI.start ho hlayer
  | connect ho hlayer => exact hI.connect (database_of_live ho).1 hlayer
  | database ho hf hlayer hstack => exact hI.database huser ho hf.1 hlayer hstack
  | thinkHooks horder => exact hI.thinkHooks huser horder

/-! ### Destruction -/

lemma finalizes_of_not_finalizing (h : s.finalizing = false) (hI : s.Runs) :
    ∀ x ∈ s.stack, x.finalizes = true → s.closed = true := by
  intro x hx hfinalizes
  cases hstack : s.stack with
  | nil => simp [hstack] at hx
  | cons y below =>
      rw [hstack] at hx
      rcases List.mem_cons.1 hx with rfl | hx
      · rw [finalizing, hstack] at h
        cases x with
        | function | thinkHooks => cases hfinalizes
        | destroying | shutdownAll => cases h
      · exact hI.ordered.tidy x (by rwa [hstack]) hfinalizes

/-- The garbage collector starts to destroy a database that nothing refers to. -/
lemma Runs.collect (hI : s.Runs) (hfinalizing : s.finalizing = false) {d : ℕ} {o : DatabaseObject}
    (ho : s.live d = some o) (hpinned : s.closed = true ∨ s.pinned d o = false) :
    (s.push (.destroying d .abortAllQueries true)).Runs := by
  obtain ⟨ho, hdestroyed⟩ := database_of_live ho
  refine ⟨hI.ordered.push (fun _ => .inr ⟨d, _, rfl⟩) (finalizes_of_not_finalizing hfinalizing hI),
    fun d' => ?_⟩
  have hfine := hI.fine d'
  by_cases hd : d' = d
  · subst hd
    have hmarks : (s.push (.destroying d' .abortAllQueries true)).marks d' =
        .destroying :: s.marks d' := by
      simp [marks, push, Entry.marks]
    show Fine _ s.closed s.cores[d']?
    rw [hmarks]
    refine ⟨fun c _ halive => absurd List.mem_cons_self halive.2.2, fun _ m hm => ?_⟩
    refine (List.mem_cons.1 hm).elim id fun hm => ?_
    rcases hpinned with hclosed | hpinned
    · refine hfine.2 (fun c _ halive => ?_) m hm
      exact absurd (halive.1.symm.trans hclosed) (by simp)
    · -- no function on the stack uses it
      obtain ⟨x, hx, hmark⟩ := List.mem_flatMap.1 hm
      have hunused : x.uses d' = false := by
        simp only [pinned, Bool.or_eq_false_iff, List.any_eq_false] at hpinned
        simpa using hpinned.2 x hx
      cases x with
      | function d loc =>
          simp only [Entry.uses, decide_eq_false_iff_not] at hunused
          simp [Entry.marks, hunused] at hmark
      | thinkHooks rest =>
          obtain ⟨hook, hmem, rfl⟩ := List.mem_map.1 hmark
          simp only [Entry.uses, List.any_eq_false] at hunused
          exact absurd (List.mem_filter.1 hmem).2 (hunused hook (List.mem_filter.1 hmem).1)
      | destroying d stage delete =>
          simp only [Entry.marks] at hmark
          split at hmark
          · exact List.mem_singleton.1 hmark
          · cases hmark
      | shutdownAll => cases hmark
  · have hmarks : (s.push (.destroying d .abortAllQueries true)).marks d' = s.marks d' := by
      simp [marks, push, Entry.marks, Ne.symm hd]
    show Fine _ s.closed s.cores[d']?
    rw [hmarks]
    exact hfine

theorem runs_of_reach (h : machine.Reach Unnested s) : s.Runs := by
  refine machine_invariant (I := Runs) ?_ (fun s t a hr hI hC hstep => ?_) h
  · have hnone : Fine [] false none := ⟨by simp, by simp⟩
    exact ⟨⟨nofun, nofun⟩, fun _ => hnone⟩
  cases hstep with
  | @thread a d o b layer ha ho hlayer =>
      refine hI.setLayer ho fun hsound => hsound.thread ?_ ?_ hlayer
      · rcases ha with ⟨_, -, rfl⟩ | ⟨-, rfl⟩ <;> simp
      · rcases ha with ⟨_, -, rfl⟩ | ⟨-, rfl⟩ <;> simp
  | main ho hlayer =>
      exact (hI.setLayer ho fun hsound => hsound.thread (by simp) (by simp) hlayer).afterMain _ _ _
  | go hidle hgo => exact hI.go hC hgo
  | call hidle huser hcall => exact hI.call huser hcall
  | @collectQuery q x hidle hfinalizing hx =>
      have hsame : s.Same (s.destroyQuery q x) :=
        (same_clearAddedQueries (s := s) q).trans ⟨rfl, rfl, rfl⟩
      exact hsame.runs hI
  | collectDatabase hidle hfinalizing ho hpinned => exact hI.collect hfinalizing ho hpinned
  | @close order hidle hstack hclosed =>
      refine ⟨⟨fun _ _ _ => .inl rfl, fun _ _ _ => rfl⟩, fun d => ⟨fun c _ halive => ?_, ?_⟩⟩
      · exact absurd halive.1 (by simp)
      · exact fun _ m hm => by cases hm

end State

end GmsvPg.Objects
