/-
# What is running

What holds of `runningQueryData` in every reachable state: nothing is in a list twice, each
element is an execution that was built or data that was staged, data staged in a transaction that
was not started is in no list, and no data is staged twice.
-/
import GmsvPg.Objects.Staging

namespace GmsvPg.Objects

open Library
open Database (Execution Choice MainPC)

namespace State

variable {s t : State}

/-- `enqueueQuery` is at work on an execution of the query. -/
def EnqueuingQuery (s : State) (u : ℕ) : Prop :=
  ∃ (d : ℕ) (o : DatabaseObject) (e : Execution),
    s.databases[d]? = some o ∧ Enqueuing o.layer.database e ∧ e.query = u

/-- None of the data staged in a transaction is running. -/
def Unstarted (s : State) (x : QueryObject) : Prop :=
  ∀ child ∈ x.staged, ∀ y : QueryObject, s.queries[child.1]? = some y →
    .staged child.2 ∉ y.runningQueryData

/-- The invariant. -/
structure Running (s : State) : Prop where
  nodup : ∀ (q : ℕ) (x : QueryObject), s.queries[q]? = some x → x.runningQueryData.Nodup
  execution : ∀ (q : ℕ) (x : QueryObject) (e : Execution), s.queries[q]? = some x →
    .execution e ∈ x.runningQueryData → ∃ b, s.built[x.database]? = some b ∧ e.data < b.1
  counted : ∀ (q : ℕ) (x : QueryObject) (n : ℕ), s.queries[q]? = some x →
    .staged n ∈ x.runningQueryData → n < s.stagedCount
  staged : ∀ (u : ℕ) (x : QueryObject), s.queries[u]? = some x → ∀ child ∈ x.staged,
    child.2 < s.stagedCount ∧ x.isTransaction = true ∧
      ∃ y : QueryObject, s.queries[child.1]? = some y ∧ y.isTransaction = false
  /-- the number of staged data says where it was staged -/
  distinct : ∀ (u v : ℕ) (x y : QueryObject) (i j : ℕ) (child child' : ℕ × ℕ),
    s.queries[u]? = some x → s.queries[v]? = some y → x.staged[i]? = some child →
    y.staged[j]? = some child' → child.2 = child'.2 → u = v ∧ i = j
  unstarted : ∀ (u : ℕ) (x : QueryObject), s.queries[u]? = some x → x.hasBeenStarted = false →
    ¬ s.EnqueuingQuery u → s.Unstarted x
  /-- the data of an execution that is being enqueued has what is staged in its query -/
  enqueuing : ∀ (d : ℕ) (o : DatabaseObject) (e : Execution) (x : QueryObject),
    s.databases[d]? = some o → Enqueuing o.layer.database e → s.queries[e.query]? = some x →
    ∀ child ∈ x.staged, ∃ b, o.built.2[e.data]? = some b ∧ child ∈ b.2

/-- The main thread is in no operation. -/
lemma not_enqueuing (hidle : s.idle = true) {d : ℕ} {o : DatabaseObject} {e : Execution}
    (ho : s.databases[d]? = some o) : ¬ Enqueuing o.layer.database e :=
  fun he => he.not_idle (idle_database hidle ho)

lemma not_enqueuingQuery (hidle : s.idle = true) (u : ℕ) : ¬ s.EnqueuingQuery u :=
  fun h => by
    obtain ⟨d, o, e, ho, he, -⟩ := h
    exact not_enqueuing hidle ho he

lemma Running.init : Running {} where
  nodup _ _ h := absurd h (by simp)
  execution _ _ _ h := absurd h (by simp)
  counted _ _ _ h := absurd h (by simp)
  staged _ _ h := absurd h (by simp)
  distinct _ _ _ _ _ _ _ _ h := absurd h (by simp)
  unstarted _ _ h := absurd h (by simp)
  enqueuing _ _ _ _ h := absurd h (by simp)

lemma nodup_of_subperm {l l' : List Data} (h : l.Subperm l') (hl' : l'.Nodup) : l.Nodup := by
  obtain ⟨l'', hperm, hsublist⟩ := h
  exact hperm.nodup_iff.1 (hsublist.nodup hl')

/-- Where nothing is added, nothing comes to run. -/
lemma Unstarted.trims (ht : s.Trims t) {x y : QueryObject} (hclears : x.Clears y)
    (h : s.Unstarted x) : t.Unstarted y := by
  intro child hchild z' hz' hmem
  obtain ⟨z, hz, -⟩ := ht.queries child.1 z' hz'
  have hold := (ht.trims child.1 z z' hz hz').running.subset hmem
  exact h child (hclears.staged_subset hchild) z hz hold

/-- Where nothing is built or added the invariant stays, as long as what an enqueued execution
has staged runs no more once it is not enqueued. -/
lemma Running.trims (h : s.Running) (ht : s.Trims t)
    (hleft : ∀ (u : ℕ) (x y : QueryObject), s.queries[u]? = some x → t.queries[u]? = some y →
      y.hasBeenStarted = false → s.EnqueuingQuery u → ¬ t.EnqueuingQuery u → t.Unstarted y) :
    t.Running where
  nodup q y hy := by
    obtain ⟨x, hx, -⟩ := ht.queries q y hy
    exact nodup_of_subperm (ht.trims q x y hx hy).running (h.nodup q x hx)
  execution q y e hy he := by
    obtain ⟨x, hx, hclears⟩ := ht.queries q y hy
    have hbuilt : t.built = s.built := ht.built
    rw [hbuilt, hclears.database]
    exact h.execution q x e hx ((ht.trims q x y hx hy).running.subset he)
  counted q y n hy hn := by
    obtain ⟨x, hx, -⟩ := ht.queries q y hy
    rw [ht.stagedCount]
    exact h.counted q x n hx ((ht.trims q x y hx hy).running.subset hn)
  staged u y hy child hchild := by
    obtain ⟨x, hx, hclears⟩ := ht.queries u y hy
    obtain ⟨hcount, htransaction, z, hz, hplain⟩ :=
      h.staged u x hx child (hclears.staged_subset hchild)
    obtain ⟨z', hz'⟩ := ht.query_exists hz
    obtain ⟨z'', hz'', hzclears⟩ := ht.queries child.1 z' hz'
    obtain rfl := Option.some.inj (hz.symm.trans hz'')
    rw [ht.stagedCount, hclears.isTransaction]
    exact ⟨hcount, htransaction, z', hz', hzclears.isTransaction.trans hplain⟩
  distinct u v y y' i j child child' hy hy' hi hj hsame := by
    obtain ⟨x, hx, hclears⟩ := ht.queries u y hy
    obtain ⟨x', hx', hclears'⟩ := ht.queries v y' hy'
    exact h.distinct u v x x' i j child child' hx hx' (hclears.staged_getElem? hi)
      (hclears'.staged_getElem? hj) hsame
  unstarted u y hy hstarted hnot := by
    obtain ⟨x, hx, hclears⟩ := ht.queries u y hy
    by_cases henqueuing : s.EnqueuingQuery u
    · exact hleft u x y hx hy hstarted henqueuing hnot
    · have hbefore : x.hasBeenStarted = false := by
        cases hx' : x.hasBeenStarted with
        | false => rfl
        | true => exact absurd ((ht.trims u x y hx hy).hasBeenStarted hx') (by simp [hstarted])
      exact (h.unstarted u x hx hbefore henqueuing).trims ht hclears
  enqueuing d o' e y ho' he hy child hchild := by
    obtain ⟨x, hx, hclears⟩ := ht.queries e.query y hy
    obtain ⟨o, ho⟩ := ht.database_exists ho'
    rw [ht.database ho ho']
    exact h.enqueuing d o e x ho (ht.enqueuing d o o' e ho ho' he) hx child
      (hclears.staged_subset hchild)

/-! ### The calls that make something -/

/-- An element of a list to which one was added. -/
lemma getElem?_snoc {α : Type} {l : List α} {x y : α} {i : ℕ} (h : (l ++ [x])[i]? = some y) :
    l[i]? = some y ∨ i = l.length ∧ y = x := by
  rcases lt_or_ge i l.length with hlt | hge
  · exact .inl (by rwa [List.getElem?_append_left hlt] at h)
  · obtain ⟨hlt, hget⟩ := List.getElem?_eq_some_iff.1 h
    rw [List.length_append, List.length_singleton] at hlt
    obtain rfl : i = l.length := by omega
    rw [List.getElem?_concat_length] at h
    exact .inr ⟨rfl, (Option.some.inj h).symm⟩

lemma getElem?_snoc_of_some {α : Type} {l : List α} {x y : α} {i : ℕ} (h : l[i]? = some y) :
    (l ++ [x])[i]? = some y := by
  obtain ⟨hlt, -⟩ := List.getElem?_eq_some_iff.1 h
  rwa [List.getElem?_append_left hlt]

lemma Running.create (h : s.Running) (hidle : s.idle = true) :
    Running { s with databases := s.databases ++ [{}] } := by
  -- nothing is being enqueued, in the new database neither
  have hnone : ∀ (d : ℕ) (o : DatabaseObject) (e : Execution),
      (s.databases ++ [({} : DatabaseObject)])[d]? = some o → ¬ Enqueuing o.layer.database e := by
    intro d o e ho he
    rcases getElem?_snoc ho with ho | ⟨-, rfl⟩
    · exact not_enqueuing hidle ho he
    · exact he.not_idle rfl
  refine ⟨h.nodup, fun q x e hx he => ?_, h.counted, h.staged, h.distinct,
    fun u x hx hstarted _ => h.unstarted u x hx hstarted (not_enqueuingQuery hidle u),
    fun d o e x ho he => absurd he (hnone d o e ho)⟩
  obtain ⟨b, hb, hlt⟩ := h.execution q x e hx he
  refine ⟨b, ?_, hlt⟩
  rw [built, List.map_append]
  exact getElem?_snoc_of_some hb

lemma Running.query (h : s.Running) (hidle : s.idle = true) {x : QueryObject} {r : Registry}
    (hstaged : x.staged = []) (hrunning : x.runningQueryData = []) :
    Running { s with registry := r, queries := s.queries ++ [x] } where
  nodup q y hy := by
    rcases getElem?_snoc hy with hy | ⟨-, rfl⟩
    · exact h.nodup q y hy
    · rw [hrunning]
      exact List.nodup_nil
  execution q y e hy he := by
    rcases getElem?_snoc hy with hy | ⟨-, rfl⟩
    · exact h.execution q y e hy he
    · rw [hrunning] at he
      exact absurd he List.not_mem_nil
  counted q y n hy hn := by
    rcases getElem?_snoc hy with hy | ⟨-, rfl⟩
    · exact h.counted q y n hy hn
    · rw [hrunning] at hn
      exact absurd hn List.not_mem_nil
  staged u y hy child hchild := by
    rcases getElem?_snoc hy with hy | ⟨-, rfl⟩
    · obtain ⟨hcount, htransaction, z, hz, hplain⟩ := h.staged u y hy child hchild
      exact ⟨hcount, htransaction, z, getElem?_snoc_of_some hz, hplain⟩
    · rw [hstaged] at hchild
      exact absurd hchild List.not_mem_nil
  distinct u v y y' i j child child' hy hy' hi hj := by
    rcases getElem?_snoc hy with hy | ⟨-, rfl⟩
    · rcases getElem?_snoc hy' with hy' | ⟨-, rfl⟩
      · exact h.distinct u v y y' i j child child' hy hy' hi hj
      · rw [hstaged] at hj
        exact absurd hj (by simp)
    · rw [hstaged] at hi
      exact absurd hi (by simp)
  unstarted u y hy hstarted _ := by
    intro child hchild z hz hmem
    rcases getElem?_snoc hz with hz | ⟨-, rfl⟩
    · rcases getElem?_snoc hy with hy | ⟨-, rfl⟩
      · exact h.unstarted u y hy hstarted (not_enqueuingQuery hidle u) child hchild z hz hmem
      · rw [hstaged] at hchild
        exact absurd hchild List.not_mem_nil
    · rw [hrunning] at hmem
      exact absurd hmem List.not_mem_nil
  enqueuing d o e y ho he := absurd he (not_enqueuing hidle ho)

/-- What `addQuery` makes of the queries. -/
lemma query_of_addQuery {u q i : ℕ} {z' : QueryObject}
    (h : (s.queries.modify u fun x =>
      { x with addedQueries := x.addedQueries ++ [⟨s.registry.fresh, q, s.stagedCount⟩] })[i]? =
        some z') :
    ∃ z : QueryObject, s.queries[i]? = some z ∧ z'.runningQueryData = z.runningQueryData ∧
      z'.database = z.database ∧ z'.isTransaction = z.isTransaction ∧
      z'.hasBeenStarted = z.hasBeenStarted ∧
      (z'.staged = z.staged ∨ i = u ∧ z'.staged = z.staged ++ [(q, s.stagedCount)]) := by
  rw [List.getElem?_modify] at h
  obtain ⟨z, hz, rfl⟩ := Option.map_eq_some_iff.1 h
  refine ⟨z, hz, ?_⟩
  split
  · rename_i hi
    exact ⟨rfl, rfl, rfl, rfl, .inr ⟨hi.symm, by simp [QueryObject.staged]⟩⟩
  · exact ⟨rfl, rfl, rfl, rfl, .inl rfl⟩

lemma Running.addQuery (h : s.Running) (hidle : s.idle = true) {u q : ℕ} {x y : QueryObject}
    {r : Registry} (hx : s.queries[u]? = some x) (hy : s.queries[q]? = some y)
    (hu : x.isTransaction = true) (hq : y.isTransaction = false) :
    Running { s.modifyQuery u fun x =>
      { x with addedQueries := x.addedQueries ++ [⟨s.registry.fresh, q, s.stagedCount⟩] } with
        registry := r
        stagedCount := s.stagedCount + 1 } where
  nodup i z' hz' := by
    obtain ⟨z, hz, hrunning, -⟩ := query_of_addQuery hz'
    rw [hrunning]
    exact h.nodup i z hz
  execution i z' e hz' he := by
    obtain ⟨z, hz, hrunning, hdatabase, -⟩ := query_of_addQuery hz'
    rw [hrunning] at he
    rw [hdatabase]
    exact h.execution i z e hz he
  counted i z' n hz' hn := by
    obtain ⟨z, hz, hrunning, -⟩ := query_of_addQuery hz'
    rw [hrunning] at hn
    exact Nat.lt_succ_of_lt (h.counted i z n hz hn)
  staged i z' hz' child hchild := by
    obtain ⟨z, hz, -, -, htransaction, -, hstaged⟩ := query_of_addQuery hz'
    -- the query of a child is still there, and still no transaction
    have hplain : ∀ y : QueryObject, s.queries[child.1]? = some y → y.isTransaction = false →
        ∃ y' : QueryObject, (s.queries.modify u fun x => { x with
          addedQueries := x.addedQueries ++ [⟨s.registry.fresh, q, s.stagedCount⟩] })[child.1]? =
            some y' ∧ y'.isTransaction = false := by
      intro y hy hplain
      rw [List.getElem?_modify, hy]
      refine ⟨_, rfl, ?_⟩
      split
      · exact hplain
      · exact hplain
    have hold : ∀ child ∈ z.staged, child.2 < s.stagedCount + 1 :=
      fun child hchild => Nat.lt_succ_of_lt (h.staged i z hz child hchild).1
    rw [htransaction]
    rcases hstaged with hsame | ⟨rfl, hadded⟩
    · rw [hsame] at hchild
      obtain ⟨-, htransaction, y, hy, hy'⟩ := h.staged i z hz child hchild
      exact ⟨hold child hchild, htransaction, hplain y hy hy'⟩
    · rw [hadded] at hchild
      rcases List.mem_append.1 hchild with hchild | hchild
      · obtain ⟨-, htransaction, y, hy, hy'⟩ := h.staged i z hz child hchild
        exact ⟨hold child hchild, htransaction, hplain y hy hy'⟩
      · obtain rfl := List.mem_singleton.1 hchild
        obtain rfl := Option.some.inj (hx.symm.trans hz)
        exact ⟨Nat.lt_succ_self _, hu, hplain y hy hq⟩
  distinct i j z z' k l child child' hz hz' hk hl hsame := by
    obtain ⟨v, hv, -, -, -, -, hstaged⟩ := query_of_addQuery hz
    obtain ⟨v', hv', -, -, -, -, hstaged'⟩ := query_of_addQuery hz'
    -- each is as before, or the one that was added
    have hcases : ∀ (i k : ℕ) (z v : QueryObject) (child : ℕ × ℕ), s.queries[i]? = some v →
        (z.staged = v.staged ∨ i = u ∧ z.staged = v.staged ++ [(q, s.stagedCount)]) →
        z.staged[k]? = some child →
        v.staged[k]? = some child ∧ child.2 < s.stagedCount ∨
          i = u ∧ k = x.staged.length ∧ child.2 = s.stagedCount := by
      intro i k z v child hv hstaged hk
      have hold : v.staged[k]? = some child → child.2 < s.stagedCount :=
        fun hk => (h.staged i v hv child (List.mem_of_getElem? hk)).1
      rcases hstaged with hsame | ⟨rfl, hadded⟩
      · rw [hsame] at hk
        exact .inl ⟨hk, hold hk⟩
      · rw [hadded] at hk
        obtain rfl := Option.some.inj (hx.symm.trans hv)
        rcases getElem?_snoc hk with hk | ⟨rfl, rfl⟩
        · exact .inl ⟨hk, hold hk⟩
        · exact .inr ⟨rfl, rfl, rfl⟩
    rcases hcases i k z v child hv hstaged hk with ⟨hk, hlt⟩ | ⟨rfl, rfl, hcount⟩
    · rcases hcases j l z' v' child' hv' hstaged' hl with ⟨hl, -⟩ | ⟨-, -, hcount'⟩
      · exact h.distinct i j v v' k l child child' hv hv' hk hl hsame
      · omega
    · rcases hcases j l z' v' child' hv' hstaged' hl with ⟨-, hlt'⟩ | ⟨rfl, rfl, -⟩
      · omega
      · exact ⟨rfl, rfl⟩
  unstarted i z' hz' hstarted _ := by
    obtain ⟨z, hz, -, -, -, hbefore, hstaged⟩ := query_of_addQuery hz'
    intro child hchild y' hy' hmem
    obtain ⟨y, hy, hrunning, -⟩ := query_of_addQuery hy'
    rw [hrunning] at hmem
    have hold : child ∉ z.staged := fun hchild =>
      h.unstarted i z hz (hbefore.symm.trans hstarted) (not_enqueuingQuery hidle i) child hchild
        y hy hmem
    rcases hstaged with hsame | ⟨-, hadded⟩
    · exact hold (hsame ▸ hchild)
    · rw [hadded] at hchild
      obtain rfl := List.mem_singleton.1 ((List.mem_append.1 hchild).resolve_left hold)
      exact absurd (h.counted _ y _ hy hmem) (lt_irrefl _)
  enqueuing d o e y ho he := absurd he (not_enqueuing hidle ho)

/-! ### `start` -/

/-- No data is staged twice in a transaction. -/
lemma Running.nodup_stagedData (h : s.Running) {u : ℕ} {x : QueryObject}
    (hx : s.queries[u]? = some x) (q : ℕ) : (Objects.stagedData x.staged q).Nodup := by
  have hstaged : (x.staged.map Prod.snd).Nodup := by
    refine List.nodup_iff_getElem?_ne_getElem?.2 fun i j hij hj heq => ?_
    rw [List.length_map] at hj
    rw [List.getElem?_map, List.getElem?_map, List.getElem?_eq_getElem (hij.trans hj),
      List.getElem?_eq_getElem hj] at heq
    have hsame := (h.distinct u u x x i j _ _ hx hx (List.getElem?_eq_getElem (hij.trans hj))
      (List.getElem?_eq_getElem hj) (Option.some.inj heq)).2
    omega
  have hsublist : ((x.staged.filter fun child => child.1 = q).map Prod.snd).Sublist
      (x.staged.map Prod.snd) := List.filter_sublist.map Prod.snd
  have hmap : Objects.stagedData x.staged q =
      ((x.staged.filter fun child => child.1 = q).map Prod.snd).map Data.staged := by
    rw [Objects.stagedData, List.map_map]
    rfl
  rw [hmap]
  exact (hsublist.nodup hstaged).map fun _ _ heq => Data.staged.inj heq

/-- Nothing is staged for a transaction. -/
lemma Running.stagedData_eq_nil (h : s.Running) {u q : ℕ} {x y : QueryObject}
    (hx : s.queries[u]? = some x) (hy : s.queries[q]? = some y) (hq : y.isTransaction = true) :
    Objects.stagedData x.staged q = [] := by
  refine List.eq_nil_iff_forall_not_mem.2 fun data hdata => ?_
  obtain ⟨n, hchild, -⟩ := mem_stagedData.1 hdata
  obtain ⟨-, -, z, hz, hplain⟩ := h.staged u x hx (q, n) hchild
  obtain rfl := Option.some.inj (hy.symm.trans hz)
  rw [hq] at hplain
  cases hplain

/-- Nothing is staged in a query that is no transaction. -/
lemma Running.staged_eq_nil (h : s.Running) {u : ℕ} {x : QueryObject}
    (hx : s.queries[u]? = some x) (hu : x.isTransaction = false) : x.staged = [] := by
  refine List.eq_nil_iff_forall_not_mem.2 fun child hchild => ?_
  rw [(h.staged u x hx child hchild).2.1] at hu
  cases hu

/-- An execution that is being built is not running. -/
lemma Running.notMem_execution (h : s.Running) {q n : ℕ} {x : QueryObject} {o : DatabaseObject}
    (hx : s.queries[q]? = some x) (ho : s.databases[x.database]? = some o) :
    .execution (o.layer.database.newExecution q n) ∉ x.runningQueryData := by
  intro hmem
  obtain ⟨b, hb, hlt⟩ := h.execution q x _ hx hmem
  rw [built_of_database ho] at hb
  obtain rfl := Option.some.inj hb
  exact absurd hlt (lt_irrefl _)

/-- `start` has thrown at once: what it has added is finished again. -/
lemma Reruns.throws (queries : List (ℕ × ℕ)) (r : Registry) (q : ℕ) (e : Execution)
    (references : CallbackReferences) :
    s.Reruns (({ s.addStaged queries with registry := r } : State).finishData q (.execution e)
      ⟨q, references, queries, false⟩).throw fun c l =>
        if q = c then Objects.finishQueryData (.execution e)
          (finishAll (Objects.stagedData queries c) (l ++ Objects.stagedData queries c))
        else finishAll (Objects.stagedData queries c) (l ++ Objects.stagedData queries c) := by
  have hadded : s.Reruns { s.addStaged queries with registry := r } fun c l =>
      l ++ Objects.stagedData queries c := reruns_addStaged queries
  exact hadded.trans (reruns_finishData q (.execution e) ⟨q, references, queries, false⟩)

lemma databases_throws (queries : List (ℕ × ℕ)) (r : Registry) (q : ℕ) (data : Data)
    (y : ExecutionData) :
    (({ s.addStaged queries with registry := r } : State).finishData q data y).throw.databases =
      s.databases := by
  rw [throw, finishData_eq, addStaged_eq]

lemma Running.trims_throws (h : s.Running) {q : ℕ} {x : QueryObject} {r : Registry}
    {e : Execution} {references : CallbackReferences} (hx : s.queries[q]? = some x) :
    s.Trims (({ s.addStaged x.staged with registry := r } : State).finishData q (.execution e)
      ⟨q, references, x.staged, false⟩).throw := by
  have hadded : s.Unstages { s.addStaged x.staged with registry := r } :=
    (s.unstages_addStaged x.staged).trans (.of_eq rfl rfl rfl)
  have hthrows : ∀ v : State, v.Unstages v.throw := fun v => .of_eq rfl rfl rfl
  have hfinished := hadded.trans (trims_finishData q (.execution e)
    ⟨q, references, x.staged, false⟩).toUnstages
  refine ⟨hfinished.trans (hthrows _), fun c y z hy hz => ?_, fun d o o' e ho ho' he => ?_⟩
  · rw [Reruns.throws x.staged r q e references c, hy] at hz
    obtain rfl := Option.some.inj hz
    have hsubperm := finishAll_append_subperm (h.nodup c y hy) (h.nodup_stagedData hx c)
    refine ⟨id, ?_⟩
    show (if q = c then _ else _ : List Data).Subperm _
    split
    · exact (finishQueryData_sublist _ _).subperm.trans hsubperm
    · exact hsubperm
  · rw [databases_throws] at ho'
    obtain rfl := Option.some.inj (ho.symm.trans ho')
    exact he

/-! ### `start` begins -/

/-- `start` has added the staged data and the execution, and the layer of the database has begun
to enqueue it. -/
def begun (s : State) (q : ℕ) (x : QueryObject) (e : Execution) (r : Registry) (layer : Lua.State)
    (data : ExecutionData) : State :=
  (({ s.addStaged x.staged with registry := r } : State).addQueryData q
    (.execution e)).modifyDatabase x.database fun o =>
      { o with layer := layer, executions := o.executions ++ [data] }

section Begun

variable {q n : ℕ} {x : QueryObject} {o : DatabaseObject} {e : Execution} {r : Registry}
  {layer : Lua.State} {data : ExecutionData} {references : CallbackReferences}

lemma reruns_begun : s.Reruns (s.begun q x e r layer data) fun c l =>
    l ++ Objects.stagedData x.staged c ++ if q = c then [.execution e] else [] := by
  have hadded : s.Reruns { s.addStaged x.staged with registry := r } fun c l =>
      l ++ Objects.stagedData x.staged c := reruns_addStaged x.staged
  have hexecution : s.Reruns (s.begun q x e r layer data) fun c l =>
      if q = c then (l ++ Objects.stagedData x.staged c) ++ [.execution e]
      else l ++ Objects.stagedData x.staged c :=
    fun c => (hadded.trans (reruns_modifyQuery _ q fun l => l ++ [Data.execution e])) c
  refine hexecution.congr fun c l => ?_
  split <;> simp

lemma databases_begun : (s.begun q x e r layer data).databases =
    s.databases.modify x.database fun o =>
      { o with layer := layer, executions := o.executions ++ [data] } := by
  rw [begun, addStaged_eq]
  rfl

lemma thrown_begun : (s.begun q x e r layer data).thrown = s.thrown := by
  rw [begun, addStaged_eq]
  rfl

lemma stagedCount_begun : (s.begun q x e r layer data).stagedCount = s.stagedCount := by
  rw [begun, addStaged_eq]
  rfl

lemma unstages_begun : s.Unstages (({ s.addStaged x.staged with
    registry := r } : State).addQueryData q (.execution e)) := by
  have hadded : s.Unstages { s.addStaged x.staged with registry := r } :=
    (s.unstages_addStaged x.staged).trans (.of_eq rfl rfl rfl)
  exact hadded.trans (unstages_addQueryData q (.execution e))

lemma query_of_begun {c : ℕ} {y' : QueryObject}
    (hy' : (s.begun q x e r layer data).queries[c]? = some y') :
    ∃ y : QueryObject, s.queries[c]? = some y ∧
      y' = { y with runningQueryData := y.runningQueryData ++ Objects.stagedData x.staged c ++
        if q = c then [.execution e] else [] } := by
  rw [reruns_begun c] at hy'
  obtain ⟨y, hy, rfl⟩ := Option.map_eq_some_iff.1 hy'
  exact ⟨y, hy, rfl⟩

/-- What runs then: what ran before, what was staged, and the execution. -/
lemma mem_begun {c : ℕ} {l : List Data} {a : Data}
    (h : a ∈ l ++ Objects.stagedData x.staged c ++ if q = c then [.execution e] else []) :
    a ∈ l ∨ (∃ m, (c, m) ∈ x.staged ∧ a = .staged m) ∨ q = c ∧ a = .execution e := by
  rcases List.mem_append.1 h with hrest | hnew
  · exact (List.mem_append.1 hrest).imp_right fun hdata => .inl (mem_stagedData.1 hdata)
  · split at hnew
    · rename_i hc
      exact .inr (.inr ⟨hc, List.mem_singleton.1 hnew⟩)
    · exact absurd hnew List.not_mem_nil

lemma Running.unstarted_of_start (h : s.Running) (hidle : s.idle = true)
    (hx : s.queries[q]? = some x) (hstarted : x.isTransaction = true → x.hasBeenStarted = false) :
    s.Unstarted x := by
  cases hu : x.isTransaction with
  | false =>
      intro child hchild
      rw [h.staged_eq_nil hx hu] at hchild
      exact absurd hchild List.not_mem_nil
  | true => exact h.unstarted q x hx (hstarted hu) (not_enqueuingQuery hidle q)

/-- The data that was staged did not run, and the execution is new. -/
lemma Running.nodup_begun (h : s.Running) (hx : s.queries[q]? = some x)
    (ho : s.databases[x.database]? = some o) (he : e = o.layer.database.newExecution q n)
    (hunstarted : s.Unstarted x) {c : ℕ} {y : QueryObject} (hy : s.queries[c]? = some y) :
    (y.runningQueryData ++ Objects.stagedData x.staged c ++
      if q = c then [Data.execution e] else []).Nodup := by
  have hstaged : (y.runningQueryData ++ Objects.stagedData x.staged c).Nodup := by
    refine List.nodup_append.2 ⟨h.nodup c y hy, h.nodup_stagedData hx c, ?_⟩
    rintro a ha b hb rfl
    obtain ⟨m, hchild, rfl⟩ := mem_stagedData.1 hb
    exact hunstarted (c, m) hchild y hy ha
  split
  · rename_i hc
    subst hc
    obtain rfl := Option.some.inj (hx.symm.trans hy)
    refine List.nodup_append.2 ⟨hstaged, List.nodup_singleton _, ?_⟩
    rintro a ha b hb rfl
    obtain rfl := List.mem_singleton.1 hb
    rcases List.mem_append.1 ha with hold | hdata
    · exact h.notMem_execution hx ho (he ▸ hold)
    · obtain ⟨m, -, hm⟩ := mem_stagedData.1 hdata
      cases hm
  · rwa [List.append_nil]

lemma built_of_begun (ho : s.databases[x.database]? = some o)
    (hlayer : Lua.machine.next o.layer (.call (.start q n)) = some layer) :
    (s.begun q x e r layer ⟨q, references, x.staged, false⟩).built =
      s.built.modify x.database fun b => (b.1 + 1, b.2 ++ [(q, x.staged)]) :=
  built_start ho (congrArg Database.State.started (database_of_start hlayer)) rfl rfl
    unstages_begun

lemma enqueuing_of_start (he : e = o.layer.database.newExecution q n)
    (hlayer : Lua.machine.next o.layer (.call (.start q n)) = some layer) :
    layer.database.mainPC = .enqueue e .testShuttingDown := by
  rw [database_of_start hlayer, he]

/-- Only the new execution is being enqueued. -/
lemma enqueuing_of_begun (hidle : s.idle = true)
    (he : layer.database.mainPC = .enqueue e .testShuttingDown) {d : ℕ} {o' : DatabaseObject}
    {e' : Execution} (ho' : (s.begun q x e r layer data).databases[d]? = some o')
    (he' : Enqueuing o'.layer.database e') : d = x.database ∧ e' = e := by
  rw [databases_begun, List.getElem?_modify] at ho'
  obtain ⟨o'', ho'', rfl⟩ := Option.map_eq_some_iff.1 ho'
  split at he'
  · rename_i hd
    obtain ⟨stage, hpc⟩ := he'
    exact ⟨hd.symm, (MainPC.enqueue.inj (hpc.symm.trans he)).1⟩
  · exact absurd he' (not_enqueuing hidle ho'')

lemma enqueuingQuery_begun (ho : s.databases[x.database]? = some o) (hquery : e.query = q)
    (he : layer.database.mainPC = .enqueue e .testShuttingDown) :
    (s.begun q x e r layer data).EnqueuingQuery q := by
  refine ⟨x.database, { o with layer := layer, executions := o.executions ++ [data] }, e, ?_,
    ⟨_, he⟩, hquery⟩
  rw [databases_begun, List.getElem?_modify_eq, ho]
  rfl

/-- `start` has begun. -/
lemma Running.begun (h : s.Running) (hcounted : ∀ b ∈ s.built, b.2.length = b.1)
    (hidle : s.idle = true) (hx : s.queries[q]? = some x)
    (ho : s.databases[x.database]? = some o) (he : e = o.layer.database.newExecution q n)
    (hstarted : x.isTransaction = true → x.hasBeenStarted = false)
    (hlayer : Lua.machine.next o.layer (.call (.start q n)) = some layer) :
    (s.begun q x e r layer ⟨q, references, x.staged, false⟩).Running := by
  have hquery : e.query = q := by rw [he]; rfl
  have hpc := enqueuing_of_start he hlayer
  have hbuilt : (s.begun q x e r layer ⟨q, references, x.staged, false⟩).built = _ :=
    built_of_begun ho hlayer
  have hsome := built_of_database ho
  refine ⟨fun c y' hy' => ?_, fun c y' e' hy' he' => ?_, fun c y' m hy' hm => ?_,
    fun u y' hy' child hchild => ?_, fun u v y y' i j child child' hy hy' hi hj hsame => ?_,
    fun u y' hy' hfalse hnot => ?_, fun d o' e' y' ho' he' hy' child hchild => ?_⟩
  · obtain ⟨y, hy, rfl⟩ := query_of_begun hy'
    exact h.nodup_begun hx ho he (h.unstarted_of_start hidle hx hstarted) hy
  · obtain ⟨y, hy, rfl⟩ := query_of_begun hy'
    rw [hbuilt, List.getElem?_modify]
    rcases mem_begun he' with hold | ⟨m, -, hm⟩ | ⟨rfl, hnew⟩
    · obtain ⟨b, hb, hlt⟩ := h.execution c y e' hy hold
      refine ⟨if x.database = y.database then (b.1 + 1, b.2 ++ [(q, x.staged)]) else b,
        congrArg _ hb, ?_⟩
      split
      · exact Nat.lt_succ_of_lt hlt
      · exact hlt
    · cases hm
    · obtain rfl := Option.some.inj (hx.symm.trans hy)
      obtain rfl := Data.execution.inj hnew
      refine ⟨(o.built.1 + 1, o.built.2 ++ [(q, x.staged)]), ?_, he ▸ Nat.lt_succ_self _⟩
      rw [hsome]
      exact congrArg some (if_pos rfl)
  · obtain ⟨y, hy, rfl⟩ := query_of_begun hy'
    rw [stagedCount_begun]
    rcases mem_begun hm with hold | ⟨k, hchild, hk⟩ | ⟨-, hm⟩
    · exact h.counted c y m hy hold
    · obtain rfl := Data.staged.inj hk
      exact (h.staged q x hx (c, m) hchild).1
    · cases hm
  · obtain ⟨y, hy, rfl⟩ := query_of_begun hy'
    obtain ⟨hcount, htransaction, z, hz, hplain⟩ := h.staged u y hy child hchild
    rw [stagedCount_begun]
    exact ⟨hcount, htransaction, _, (reruns_begun child.1).trans (congrArg _ hz), hplain⟩
  · obtain ⟨z, hz, rfl⟩ := query_of_begun hy
    obtain ⟨z', hz', rfl⟩ := query_of_begun hy'
    exact h.distinct u v z z' i j child child' hz hz' hi hj hsame
  · -- another transaction, whose staged data is other data
    obtain ⟨y, hy, rfl⟩ := query_of_begun hy'
    intro child hchild z' hz' hmem
    obtain ⟨z, hz, rfl⟩ := query_of_begun hz'
    rcases mem_begun hmem with hold | ⟨m, hchild', hm⟩ | ⟨-, hm⟩
    · exact h.unstarted u y hy hfalse (not_enqueuingQuery hidle u) child hchild z hz hold
    · obtain ⟨i, hi⟩ := List.mem_iff_getElem?.1 hchild
      obtain ⟨j, hj⟩ := List.mem_iff_getElem?.1 hchild'
      obtain ⟨rfl, -⟩ := h.distinct u q y x i j child _ hy hx hi hj (Data.staged.inj hm)
      exact hnot (enqueuingQuery_begun ho hquery hpc)
    · cases hm
  · -- the data of the execution is the last that was built
    obtain ⟨rfl, rfl⟩ := enqueuing_of_begun hidle hpc ho' he'
    rw [hquery] at hy'
    obtain ⟨y, hy, rfl⟩ := query_of_begun hy'
    obtain rfl := Option.some.inj (hx.symm.trans hy)
    have hnew : o'.built = (o.built.1 + 1, o.built.2 ++ [(q, x.staged)]) := by
      have hget := built_of_database ho'
      rw [hbuilt, List.getElem?_modify_eq, hsome] at hget
      exact (Option.some.inj hget).symm
    have hlength : o.built.2.length = e'.data := by
      rw [hcounted o.built (List.mem_of_getElem? hsome), he]
      rfl
    refine ⟨(q, x.staged), ?_, hchild⟩
    rw [hnew, ← hlength]
    exact List.getElem?_concat_length

end Begun

end State

/-! ### `enqueueQuery` -/

/-- How `enqueueQuery` goes on: inside the operation, to its end once the execution was put on the
queue, or out of it by an exception. -/
inductive EnqueueStep (s t : Database.State) (e : Execution) : Prop
  | inside {stage stage' : Database.EnqueueStage} (hpc : s.mainPC = .enqueue e stage)
      (hstage : stage ≠ .setFinished) (hnext : t.mainPC = .enqueue e stage')
      (hqueue : t.queue = s.queue)
  | accepted (hpc : s.mainPC = .enqueue e .put) (hidle : t.mainPC = .idle)
  | throws (hpc : s.mainPC = .enqueue e .setFinished) (hidle : t.mainPC = .idle)
      (hqueue : t.queue = s.queue)

/-- A step of the main thread in the layer is one of the database. -/
lemma database_of_main {l layer : Lua.State} {c : Choice}
    (h : Lua.machine.next l (.main c) = some layer) :
    Database.system.next l.database (.main c) = some layer.database := by
  cases Lua.step_of_next h with
  | environment hb => rcases hb with ⟨c, hc, -⟩ | ⟨hc, -⟩ <;> cases hc
  | main hpc hnext =>
      rw [Lua.State.afterMain_database]
      exact hnext

lemma enqueueStep_of_next {s t : Database.State} {c : Choice} {e : Execution}
    (h : Database.system.next s (.main c) = some t) (he : Enqueuing s e) : EnqueueStep s t e := by
  obtain ⟨stage, hpc⟩ := he
  cases Database.step_of_next h with
  | spawn hspawn =>
      rw [hpc] at hspawn
      cases hspawn
  | join hjoin =>
      rw [hpc] at hjoin
      cases hjoin
  | @main c a pc hspawn hnext =>
      rw [hpc] at hnext
      have hnext : stage.next s.toShared e = (a, pc) := Option.some.inj hnext
      cases stage with
      | testShuttingDown | testClosed | storeWaiting | storeAborted =>
          obtain ⟨rfl, rfl⟩ := Prod.mk.inj hnext
          exact .inside hpc (by simp) rfl rfl
      | put =>
          simp only [Database.EnqueueStage.next] at hnext
          split at hnext <;> obtain ⟨rfl, rfl⟩ := Prod.mk.inj hnext
          · exact .inside hpc (by simp) rfl rfl
          · exact .accepted hpc rfl
      | setFinished =>
          obtain ⟨rfl, rfl⟩ := Prod.mk.inj hnext
          exact .throws hpc rfl rfl

namespace State

variable {s t : State}

/-- What a step inside `enqueueQuery` does to the objects: nothing, or `start` returns, or it
undoes what it has done and throws. -/
inductive StartStep (s : State) (d : ℕ) (o : DatabaseObject) (e : Execution) (layer : Lua.State) :
    State → Prop
  | inside (h : Enqueuing layer.database e)
      (hqueue : layer.database.queue = o.layer.database.queue) :
      StartStep s d o e layer (s.setLayer d layer)
  | accepted (h : layer.database.mainPC = .idle) :
      StartStep s d o e layer ((s.setLayer d layer).modifyQuery e.query fun x =>
        { x with hasBeenStarted := true })
  | throws (h : layer.database.mainPC = .idle)
      (hqueue : layer.database.queue = o.layer.database.queue) :
      StartStep s d o e layer ((s.setLayer d layer).finishLuaQueryData d e).throw

lemma startStep_of_main {d : ℕ} {o : DatabaseObject} {c : Choice} {e : Execution}
    {layer : Lua.State} (hlayer : Lua.machine.next o.layer (.main c) = some layer)
    (he : Enqueuing o.layer.database e) :
    StartStep s d o e layer
      ((s.setLayer d layer).afterMain d o.layer.database.mainPC layer.database.mainPC) := by
  cases enqueueStep_of_next (database_of_main hlayer) he with
  | @inside stage stage' hpc hstage hnext hqueue =>
      have hafter : (s.setLayer d layer).afterMain d (.enqueue e stage) (.enqueue e stage') =
          s.setLayer d layer := by
        cases stage with
        | setFinished => exact absurd rfl hstage
        | put => simp [afterMain]
        | testShuttingDown | testClosed | storeWaiting | storeAborted => rfl
      rw [hpc, hnext, hafter]
      exact .inside ⟨stage', hnext⟩ hqueue
  | accepted hpc hidle =>
      rw [hpc, hidle]
      exact .accepted hidle
  | throws hpc hidle hqueue =>
      rw [hpc, hidle]
      exact .throws hidle hqueue

/-- The layers are not changed after a step of the main thread. -/
lemma layer_afterMain (d : ℕ) (pc pc' : MainPC) {i : ℕ} {o : DatabaseObject}
    (ho : s.databases[i]? = some o) :
    ∃ o' : DatabaseObject, (s.afterMain d pc pc').databases[i]? = some o' ∧ o'.layer = o.layer := by
  have hcores : (s.afterMain d pc pc').cores = s.cores := by
    unfold afterMain
    split
    · exact (same_finishLuaQueryData d _).cores
    · split <;> rfl
    · split <;> rfl
    · split <;> rfl
    · split
      · split <;> rfl
      · rfl
    · rfl
  have hcore := congrArg (·[i]?) hcores
  simp only [cores, List.getElem?_map, ho, Option.map_some] at hcore
  obtain ⟨o', ho', hsame⟩ := Option.map_eq_some_iff.1 hcore
  exact ⟨o', ho', congrArg Core.layer hsame⟩

/-- What an execution has staged runs no more after `start` has thrown. -/
lemma Running.unstarted_throws (h : s.Running) {d : ℕ} {o : DatabaseObject} {e : Execution}
    {layer : Lua.State} {x y : QueryObject} (ho : s.databases[d]? = some o)
    (he : Enqueuing o.layer.database e) (hx : s.queries[e.query]? = some x) (hclears : x.Clears y) :
    ((s.setLayer d layer).finishLuaQueryData d e).throw.Unstarted y := by
  intro child hchild z' hz' hmem
  obtain ⟨b, hb, hstaged⟩ := h.enqueuing d o e x ho he hx child (hclears.staged_subset hchild)
  obtain ⟨data, hdata, rfl⟩ := Option.map_eq_some_iff.1 ((List.getElem?_map ..).symm.trans hb)
  have hexecution : (s.setLayer d layer).executionData d e = some data := by
    rw [executionData, setLayer, modifyDatabase, List.getElem?_modify_eq, ho]
    exact hdata
  have hfinished : ((s.setLayer d layer).finishLuaQueryData d e).throw.queries =
      ((s.setLayer d layer).finishData e.query (.execution e) data).queries := by
    rw [finishLuaQueryData, hexecution]
    rfl
  rw [hfinished, reruns_finishData] at hz'
  obtain ⟨z, hz, rfl⟩ := Option.map_eq_some_iff.1 hz'
  -- what is staged now is staged in the data of the execution, which takes it out
  have hnot : Data.staged child.2 ∉ finishAll (Objects.stagedData data.queries child.1)
      z.runningQueryData :=
    notMem_finishAll (h.nodup child.1 z hz) (mem_stagedData.2 ⟨child.2, hstaged, rfl⟩)
  change Data.staged child.2 ∈ (if e.query = child.1 then _ else _ : List Data) at hmem
  split at hmem
  · exact hnot ((finishQueryData_sublist _ _).subset hmem)
  · exact hnot hmem

lemma Running.main (h : s.Running) {d : ℕ} {o : DatabaseObject} {c : Choice} {layer : Lua.State}
    (ho : s.databases[d]? = some o) (hlayer : Lua.machine.next o.layer (.main c) = some layer) :
    Running ((s.setLayer d layer).afterMain d o.layer.database.mainPC layer.database.mainPC) := by
  have htrims := trims_of_step (.main (c := c) ho hlayer) rfl
  refine h.trims htrims fun u x y hx hy hfalse hbefore hnot => ?_
  have hset : ∀ (i : ℕ) (o' : DatabaseObject), s.databases[i]? = some o' →
      (s.setLayer d layer).databases[i]? =
        some (if d = i then { o' with layer := layer } else o') := by
    intro i o' ho'
    rw [setLayer, modifyDatabase, List.getElem?_modify, ho']
    rfl
  -- the query was being enqueued before the step and is not any more
  obtain ⟨i, o', e, ho', he, rfl⟩ := hbefore
  by_cases hi : d = i
  · subst hi
    obtain rfl := Option.some.inj (ho.symm.trans ho')
    have hlayers := layer_afterMain d o.layer.database.mainPC layer.database.mainPC (hset d o ho)
    obtain ⟨x', hx', hclears⟩ := htrims.queries e.query y hy
    obtain rfl := Option.some.inj (hx.symm.trans hx')
    have hstep := startStep_of_main (s := s) (d := d) hlayer he
    generalize (s.setLayer d layer).afterMain d o.layer.database.mainPC layer.database.mainPC = t
      at hstep hy hnot hlayers
    cases hstep with
    | inside henqueuing =>
        obtain ⟨o'', ho'', hsame⟩ := hlayers
        rw [if_pos rfl] at hsame
        exact absurd ⟨d, o'', e, ho'', hsame ▸ henqueuing, rfl⟩ hnot
    | accepted =>
        have hy : (s.queries.modify e.query fun x => { x with hasBeenStarted := true })[e.query]? =
            some y := hy
        rw [List.getElem?_modify_eq] at hy
        obtain ⟨x', -, rfl⟩ := Option.map_eq_some_iff.1 hy
        cases hfalse
    | throws => exact h.unstarted_throws ho he hx hclears
  · obtain ⟨o'', ho'', hsame⟩ :=
      layer_afterMain d o.layer.database.mainPC layer.database.mainPC (hset i o' ho')
    rw [if_neg hi] at hsame
    exact absurd ⟨i, o'', e, ho'', hsame ▸ he, rfl⟩ hnot

/-! ### Every run -/

lemma mainPC_of_environment {l layer : Lua.State} {b : Lua.Action}
    (hb : (∃ c, b = .worker c) ∨ b = .connectionLost)
    (h : Lua.machine.next l b = some layer) : layer.database.mainPC = l.database.mainPC := by
  cases Lua.step_of_next h with
  | @environment b c v hc hv =>
      cases Database.step_of_next hv with
      | worker | connectionLost => rfl
      | main | spawn | join | call => rcases hc with ⟨c, -, hc⟩ | ⟨-, hc⟩ <;> cases hc
  | main | lua | call => rcases hb with ⟨c, hc⟩ | hc <;> cases hc

/-- A step of the other threads. -/
lemma Running.thread (h : s.Running) {d : ℕ} {o : DatabaseObject} {b : Lua.Action}
    {layer : Lua.State} (hb : (∃ c, b = .worker c) ∨ b = .connectionLost)
    (ho : s.databases[d]? = some o) (hlayer : Lua.machine.next o.layer b = some layer) :
    Running (s.setLayer d layer) := by
  have hpc := mainPC_of_environment hb hlayer
  have hbuilds := buildsNone_of_layer hlayer fun query children => by
    rcases hb with ⟨c, rfl⟩ | rfl <;> exact nofun
  refine h.trims (trims_layer ho hbuilds) fun u x y hx hy hfalse hbefore hnot => ?_
  obtain ⟨i, o', e, ho', ⟨stage, he⟩, rfl⟩ := hbefore
  refine absurd ⟨i, if d = i then { o' with layer := layer } else o', e, ?_, ⟨stage, ?_⟩, rfl⟩ hnot
  · rw [setLayer, modifyDatabase, List.getElem?_modify, ho']
    rfl
  · split
    · rename_i hi
      subst hi
      obtain rfl := Option.some.inj (ho.symm.trans ho')
      exact hpc.trans he
    · exact he

/-- **The invariant of what is running.**  It holds in every state of every run. -/
theorem running_of_reach {C : State → Action → Prop} (h : machine.Reach C s) : s.Running := by
  refine h.invariant Running.init fun s t a hr hI _ hnext => ?_
  have hstep := step_of_next hnext
  cases hstep with
  | @thread a d o b layer hthread ho hlayer =>
      refine hI.thread ?_ ho hlayer
      rcases hthread with ⟨c, -, rfl⟩ | ⟨-, rfl⟩
      · exact .inl ⟨c, rfl⟩
      · exact .inr rfl
  | main ho hlayer => exact hI.main ho hlayer
  | go hidle | collectQuery hidle | collectDatabase hidle | close hidle =>
      exact hI.trims (trims_of_step (step_of_next hnext) rfl)
        fun u _ _ _ _ _ hbefore => absurd hbefore (not_enqueuingQuery hidle u)
  | @call f t hidle huser hcall =>
      have hquiet (hf : (Action.call f).makes = false) : t.Running :=
        hI.trims (trims_of_step (step_of_next hnext) hf)
          fun u _ _ _ _ _ hbefore => absurd hbefore (not_enqueuingQuery hidle u)
      cases hcall with
      | create => exact hI.create hidle
      | query ho => exact hI.query hidle rfl rfl
      | addQuery hx hy hu hq =>
          exact hI.addQuery hidle (query_of_live hx).1 (query_of_live hy).1 hu hq
      | addQueryThrows => exact hI
      | @startThrows q fields x o queries e hx ho hqueries he ht hstarted =>
          subst hqueries
          exact hI.trims (hI.trims_throws (query_of_live hx).1)
            fun u _ _ _ _ _ hbefore => absurd hbefore (not_enqueuingQuery hidle u)
      | @start q fields x o queries e layer hx ho hqueries he hstarted hlayer =>
          subst hqueries
          exact hI.begun (counted hr) hidle (query_of_live hx).1 ho he hstarted hlayer
      | clearQueries | getData | connect | database | thinkHooks => exact hquiet rfl

end State

end GmsvPg.Objects
