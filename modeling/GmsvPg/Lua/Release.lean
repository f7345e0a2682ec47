/-
# The release of the table

`think` releases the reference to the database table at two points: after `onConnectionFailed`,
and after `onDisconnected`.  In between it runs a callback, so another `think` may come to the
second point as well.  Unless it does so inside `onDisconnected`, there is a reference to
release whenever one of the points is reached.
-/
import GmsvPg.Lua.Causality

namespace GmsvPg.Lua

open Library Machine
open Database (Execution)

/-- `think` gets to its last block inside `onDisconnected`. -/
def State.nests (s : State) : Action → Bool
  | .lua =>
      match s.frames with
      | .think .testDisconnected _ :: below =>
          s.database.disconnected && s.tableReference && below.any Frame.inDisconnected
      | _ => false
  | _ => false

/-- The condition on a step under which the table is released once. -/
def Unnested (s : State) (a : Action) : Prop := s.nests a = false

instance (s : State) (a : Action) : Decidable (Unnested s a) :=
  inferInstanceAs (Decidable (_ = false))

/-- `think` is going to release the table. -/
def Frame.releases (success : Bool) (f : Frame) : Bool :=
  f.inDisconnected || f.ranCallback && !success

lemma Frame.releases_collect (success : Bool) (es : List Execution) (f : Frame) :
    (f.collect es).releases success = f.releases success := by
  rw [releases, releases, inDisconnected_collect, ranCallback_collect]

/-- Apart from the ends of the two callbacks, `think` comes closer to the release only by
starting one of them. -/
lemma Frame.Moves.releases {v : ThinkView Put} {f : Frame} {effect : Effect}
    {f' : Option Frame} (h : f.Moves v effect f') (success : Bool) :
    (f'.toList.countP (Frame.releases success) ≤ [f].countP (Frame.releases success) ∧
        effect ≠ .think .freeTable) ∨
      (f'.toList.countP (Frame.releases success) = 0 ∧
        f.releases v.connectionSuccessful = true ∧ effect = .think .freeTable) ∨
      (∃ w, f' = some (.think .connectionCallback w) ∧ v.connectionDone = true ∧
        v.dbCallbackRan = false ∧ v.hasTable = true ∧ effect = .think .setCallbackRan) ∨
      ∃ w, f = .think .testDisconnected w ∧ f' = some (.think .inDisconnectedCallback w) ∧
        v.disconnected = true ∧ v.hasTable = true ∧ effect ≠ .think .freeTable := by
  cases h with
  | announce hdone hran htable => exact .inr (.inr (.inl ⟨_, rfl, hdone, hran, htable, rfl⟩))
  | failed hfailed =>
      exact .inr (.inl ⟨by simp [Frame.releases, Frame.inDisconnected, Frame.ranCallback],
        by simp [Frame.releases, Frame.ranCallback, hfailed], rfl⟩)
  | disconnectedReturn =>
      exact .inr (.inl ⟨by simp, by simp [Frame.releases, Frame.inDisconnected], rfl⟩)
  | disconnected hdisconnected htable =>
      exact .inr (.inr (.inr ⟨_, rfl, rfl, hdisconnected, htable, by simp⟩))
  | _ =>
      exact .inl ⟨by simp [Frame.releases, Frame.inDisconnected, Frame.ranCallback], by simp⟩

namespace State

variable {C : State → Action → Prop} {s t : State}

/-- There is a reference for each `think` that is going to release it, which is one at most. -/
def Releasable (s : State) : Prop :=
  s.frames.countP (Frame.releases s.database.success) ≤ s.tableReference.toNat

lemma success_of_disconnected (h : machine.Reach C s) (hd : s.database.disconnected = true) :
    s.database.success = true := by
  have hpublishes : s.database.workerPC.Publishes s.database.connectionDone s.database.success
      s.database.disconnected := Database.State.publishes_of_reach (database_reachable h)
  rcases Database.WorkerPC.past_of_disconnected hpublishes hd with hpc | hpc | hpc
  · rw [hpc] at hpublishes
    exact hpublishes.2.1
  · rw [hpc] at hpublishes
    exact hpublishes.2.1
  · rw [hpc] at hpublishes
    exact hpublishes.2.trans hd

/-- The outcome of connecting does not change while a callback tells it. -/
lemma releases_of_step {a : Action} (hr : machine.Reach C s) (h : Step s a t) {f : Frame}
    (hf : f ∈ s.frames) : f.releases t.database.success = f.releases s.database.success := by
  by_cases hran : f.ranCallback = true
  · have hran' := ran_of_reach hr
    rw [success_of_step hr h (hran'.done (hran'.frames f hf hran))]
  · rw [Frame.releases, Frame.releases, Bool.eq_false_of_not_eq_true hran]
    rfl

/-- No other `think` is going to release the table when the outcome of connecting is a failure
that was not told. -/
lemma not_releases_of_failure (hr : machine.Reach C s) (hran : s.dbCallbackRan = false)
    (hfailed : s.database.success = false) {f : Frame} (hf : f ∈ s.frames) {success : Bool} :
    f.releases success = false := by
  have hdisconnected : f.inDisconnected = false := by
    by_contra hin
    have hd := (tableless_of_reach hr).frames f hf (Bool.eq_true_of_not_eq_false hin)
    exact absurd (hfailed.symm.trans (success_of_disconnected hr hd)) (by simp)
  have hcallback : f.ranCallback = false := by
    by_contra hcallback
    have hset := (ran_of_reach hr).frames f hf (Bool.eq_true_of_not_eq_false hcallback)
    exact absurd (hran.symm.trans hset) (by simp)
  rw [Frame.releases, hdisconnected, hcallback]
  rfl

lemma countP_releases_of_step {a : Action} (hr : machine.Reach C s) (h : Step s a t)
    {frames : List Frame} (hframes : frames ⊆ s.frames) :
    frames.countP (Frame.releases t.database.success) =
      frames.countP (Frame.releases s.database.success) :=
  List.countP_congr fun f hf => by rw [releases_of_step hr h (hframes hf)]

lemma Releasable.lua {f : Frame} {f' : Option Frame} {below : List Frame} {effect : Effect}
    {u : State} (hI : s.Releasable) (hr : machine.Reach Unnested s) (hC : Unnested s .lua)
    (hidle : s.database.mainPC = .idle) (hframes : s.frames = f :: below)
    (hnext : f.Moves s.view effect f') (hu : s.perform effect = some u) :
    ({ u with frames := f'.toList ++ below } : State).Releasable := by
  have hstep : Step s .lua { u with frames := f'.toList ++ below } :=
    .lua hidle hframes hnext hu
  have hbelow : below.countP (Frame.releases u.database.success) =
      below.countP (Frame.releases s.database.success) :=
    countP_releases_of_step hr hstep (hframes ▸ List.subset_cons_self f below)
  have hf : [f].countP (Frame.releases u.database.success) =
      [f].countP (Frame.releases s.database.success) :=
    countP_releases_of_step hr hstep (by rw [hframes]; simp)
  unfold Releasable at hI ⊢
  show (f'.toList ++ below).countP (Frame.releases u.database.success) ≤ u.tableReference.toNat
  rw [hframes, ← List.singleton_append, List.countP_append] at hI
  rw [List.countP_append, hbelow, (performed hu).tableReference]
  have hone : s.tableReference.toNat ≤ 1 := Bool.toNat_le _
  rcases hnext.releases u.database.success with
    ⟨hle, hne⟩ | ⟨hzero, hreleases, rfl⟩ | ⟨w, rfl, hdone, hran, htable, rfl⟩ |
      ⟨w, rfl, rfl, hd, htable, hne⟩
  · simp only [hne, ne_eq, not_false_eq_true, decide_true, Bool.and_true]
    omega
  · -- it was the one that releases the table
    have hreleases : f.releases s.database.success = true := hreleases
    have hcount : [f].countP (Frame.releases s.database.success) = 1 := by
      rw [List.countP_singleton, if_pos hreleases]
    simp only [ne_eq, not_true_eq_false, decide_false, Bool.and_false, Bool.toNat_false]
    omega
  · -- a callback that tells the outcome of connecting is started
    have htable : s.tableReference = true := htable
    have hsuccess := success_of_step hr hstep hdone
    rw [htable] at hI ⊢
    show [Frame.think .connectionCallback w].countP _ + _ ≤ 1
    have hone : (true : Bool).toNat = 1 := rfl
    cases hfailed : u.database.success with
    | true =>
        have hnone : [Frame.think .connectionCallback w].countP (Frame.releases true) = 0 := rfl
        omega
    | false =>
        have hnone : below.countP (Frame.releases s.database.success) = 0 :=
          List.countP_eq_zero.2 fun g hg => by
            rw [not_releases_of_failure hr hran (hsuccess.symm.trans hfailed)
              (hframes ▸ List.mem_cons_of_mem f hg)]
            simp
        have hle := List.countP_le_length (p := Frame.releases false)
          (l := [Frame.think .connectionCallback w])
        rw [List.length_singleton] at hle
        omega
  · -- `onDisconnected` is started, and it is not running already
    have hd : s.database.disconnected = true := hd
    have htable : s.tableReference = true := htable
    have hsuccess : s.database.success = true := success_of_disconnected hr hd
    have hnested : below.any Frame.inDisconnected = false := by
      simpa [Unnested, nests, hframes, hd, htable] using hC
    have hnone : below.countP (Frame.releases s.database.success) = 0 :=
      List.countP_eq_zero.2 fun g hg => by
        rw [Frame.releases, hsuccess]
        simpa using List.any_eq_false.1 hnested g hg
    have hle := List.countP_le_length (p := Frame.releases u.database.success)
      (l := [Frame.think .inDisconnectedCallback w])
    rw [List.length_singleton] at hle
    simp only [htable, ne_eq, hne, not_false_eq_true, decide_true, Bool.and_true, Bool.toNat_true,
      Option.toList_some]
    omega

theorem releasable_of_reach (h : machine.Reach Unnested s) : s.Releasable := by
  refine machine_invariant (I := Releasable) (Nat.zero_le _) (fun s t a hr hI hC hstep => ?_) h
  have hsame := countP_releases_of_step hr hstep (List.Subset.refl s.frames)
  cases hstep with
  | environment => exact hsame.trans_le hI
  | main hpc hdatabase =>
      unfold Releasable
      rw [countP_afterMain (Frame.releases_collect _), afterMain_tableReference]
      exact hsame.trans_le hI
  | lua hidle hframes hnext hu => exact hI.lua hr hC hidle hframes hnext hu
  | @call f t hidle huser hcall =>
      have htable : s.tableReference.toNat ≤ t.tableReference.toNat := by
        cases callStep_of_call hcall with
        | connect => exact Bool.toNat_le _
        | begin | start | waitQuery | enter | throw => exact Nat.le_refl _
      have hframes : t.frames.countP (Frame.releases t.database.success) =
          s.frames.countP (Frame.releases t.database.success) := by
        rcases (callStep_of_call hcall).called.frames with hframes | ⟨g, hentered, hframes⟩
        · rw [hframes]
        · rw [hframes, List.countP_cons]
          cases hentered <;> rfl
      exact (hframes.trans hsame).trans_le (hI.trans htable)

/-- When the table is released, there is a reference to it. -/
theorem tableReference_of_freeTable (h : machine.Reach Unnested s) {f : Frame}
    {f' : Option Frame} {below : List Frame} (hframes : s.frames = f :: below)
    (hnext : f.Moves s.view (.think .freeTable) f') : s.tableReference = true := by
  have hcount := releasable_of_reach h
  unfold Releasable at hcount
  rcases hnext.releases s.database.success with
    ⟨-, hne⟩ | ⟨-, hreleases, -⟩ | ⟨w, -, -, -, -, heffect⟩ | ⟨w, -, -, -, -, hne⟩
  · exact absurd rfl hne
  · rw [hframes, List.countP_cons, if_pos (show f.releases s.database.success = true from hreleases)]
      at hcount
    by_contra htable
    rw [Bool.eq_false_of_not_eq_true htable] at hcount
    exact absurd hcount (Nat.not_succ_le_zero _)
  · cases heffect
  · exact absurd rfl hne

end State

end GmsvPg.Lua
