/-
# What is read from the data of an execution

The data of an execution keeps what was in force when it was built: the step lemma says that no
step changes what is read from data that exists, and the invariant that what was handed to libpq,
and every table that was made, is what the data says.
-/
import GmsvPg.Objects.Balance
import GmsvPg.Objects.Settings

namespace GmsvPg.Snapshot

open Library
open Objects (DataName)

/-! ### What was built -/

/-- The data was built. -/
def Named (o : Objects.State) : DataName → Prop
  | .execution d k => ∃ b, o.built[d]? = some b ∧ k < b.1
  | .staged m => m < o.stagedCount

section

variable {o o' : Objects.State} {a : Objects.Action} {n : DataName} {q : ℕ}

/-- What is built is new. -/
lemma not_named_of_builds (h : o.builds a = some (n, q)) : ¬ Named o n := by
  unfold Objects.State.builds at h
  split at h
  · obtain ⟨x, hx, h⟩ := Option.bind_eq_some_iff.1 h
    obtain ⟨o', ho', h⟩ := Option.bind_eq_some_iff.1 h
    split at h
    · cases h
    · obtain ⟨rfl, rfl⟩ := Prod.mk.inj (Option.some.inj h)
      rintro ⟨b, hb, hlt⟩
      obtain rfl := Option.some.inj (hb.symm.trans (Objects.State.built_of_database ho'))
      exact lt_irrefl _ hlt
  · obtain ⟨x, hx, h⟩ := Option.bind_eq_some_iff.1 h
    obtain ⟨y, hy, h⟩ := Option.bind_eq_some_iff.1 h
    split at h
    · obtain ⟨rfl, rfl⟩ := Prod.mk.inj (Option.some.inj h)
      exact lt_irrefl _
    · cases h
  · cases h

/-- What was built stays built. -/
lemma Named.step (hn : Named o n) (h : Objects.machine.next o a = some o') : Named o' n := by
  cases n with
  | staged m =>
      have hm : m < o.stagedCount := hn
      show m < o'.stagedCount
      cases Objects.stagingStep h with
      | unstages _ hunstages => exact hunstages.stagedCount ▸ hm
      | create _ hstaged | query _ _ hstaged => exact hstaged ▸ hm
      | addQuery _ _ hstaged => exact hstaged ▸ Nat.lt_succ_of_lt hm
      | start hx ho hbuilds hlayer hquery hqueries hv hstart =>
          rw [hstart]
          show m < Objects.State.stagedCount _
          exact hv.stagedCount ▸ hm
  | execution d k =>
      obtain ⟨b, hb, hk⟩ := hn
      cases Objects.stagingStep h with
      | unstages _ hunstages =>
          have hbuilt : o'.built = o.built := hunstages.built
          exact ⟨b, hbuilt ▸ hb, hk⟩
      | create _ _ hdatabases =>
          refine ⟨b, ?_, hk⟩
          rw [Objects.State.built, hdatabases, List.map_append]
          exact List.getElem?_append_left (List.getElem?_eq_some_iff.1 hb).1 ▸ hb
      | query _ _ _ hdatabases | addQuery _ _ _ hdatabases =>
          refine ⟨b, ?_, hk⟩
          rw [Objects.State.built, hdatabases]
          exact hb
      | start hx ho hbuilds hlayer hquery hqueries hv hstart =>
          rw [hstart]
          rw [Named, Objects.State.built_start ho hlayer hquery hqueries hv, List.getElem?_modify,
            hb]
          refine ⟨_, rfl, ?_⟩
          split
          · exact Nat.lt_succ_of_lt hk
          · exact hk

lemma length_le_of_next (h : Objects.machine.next o a = some o') :
    o.queries.length ≤ o'.queries.length := by
  cases Objects.stagingStep h with
  | unstages _ hunstages => exact hunstages.length.ge
  | create _ _ _ hqueries => rw [hqueries]
  | query _ _ _ _ hqueries =>
      rw [hqueries, List.length_append]
      exact Nat.le_add_right _ _
  | addQuery _ _ _ _ hqueries => rw [hqueries, List.length_modify]
  | start hx ho hbuilds hlayer hquery hqueries hv hstart =>
      rw [hstart]
      exact hv.length.ge

/-- What is built is there after the step, for a query that exists. -/
lemma named_of_builds (hbuilds : o.builds a = some (n, q))
    (h : Objects.machine.next o a = some o') : Named o' n ∧ q < o.queries.length := by
  cases Objects.stagingStep h with
  | unstages hnone | create hnone | query hnone =>
      exact absurd (hnone.symm.trans hbuilds) (by simp)
  | addQuery hadd hq hstaged =>
      obtain ⟨rfl, rfl⟩ := Prod.mk.inj (Option.some.inj (hadd.symm.trans hbuilds))
      refine ⟨?_, hq⟩
      rw [Named, hstaged]
      exact Nat.lt_succ_self _
  | start hx ho hnew hlayer hquery hqueries hv hstart =>
      rw [hnew] at hbuilds
      split at hbuilds
      · cases hbuilds
      · obtain ⟨rfl, rfl⟩ := Prod.mk.inj (Option.some.inj hbuilds)
        refine ⟨?_, (List.getElem?_eq_some_iff.1 hx).1⟩
        rw [hstart, Named, Objects.State.built_start ho hlayer hquery hqueries hv,
          List.getElem?_modify_eq, Objects.State.built_of_database ho]
        exact ⟨_, rfl, Nat.lt_succ_self _⟩

end

/-! ### What is read from data stays the same -/

namespace State

variable {postgresNumberToLua : Text → Double} {s t u : State} {a : Action}

/-- Data that exists stays, and the same settings are read from it. -/
def Keeps (s t : State) : Prop :=
  ∀ n y, s.data n = some y →
    ∃ z, t.data n = some z ∧ z.query = y.query ∧ t.snapshot z = s.snapshot y

lemma Keeps.refl (s : State) : s.Keeps s := fun _ y hy => ⟨y, hy, rfl, rfl⟩

lemma Keeps.trans (h : s.Keeps t) (h' : t.Keeps u) : s.Keeps u := by
  intro n y hy
  obtain ⟨z, hz, hquery, hsnapshot⟩ := h n y hy
  obtain ⟨w, hw, hquery', hsnapshot'⟩ := h' n z hz
  exact ⟨w, hw, hquery'.trans hquery, hsnapshot'.trans hsnapshot⟩

/-- Staged data was built for the query that stands beside it. -/
def BuiltFor (s : State) (child : ℕ × ℕ) : Prop :=
  ∃ y, s.data (.staged child.2) = some y ∧ y.query = child.1

lemma BuiltFor.mono {child : ℕ × ℕ} (h : s.BuiltFor child) (hkeeps : s.Keeps t) :
    t.BuiltFor child := by
  obtain ⟨y, hy, hquery⟩ := h
  obtain ⟨z, hz, hsame, -⟩ := hkeeps _ y hy
  exact ⟨z, hz, hsame.trans hquery⟩

/-- Data belongs to what was built, was built for the query beside it, and its parameters and
those of the queries point to fields. -/
structure Sound (s : State) : Prop where
  named : ∀ n y, s.data n = some y → Named s.objects n
  query : ∀ n y, s.data n = some y → y.query < s.objects.queries.length
  fields : ∀ n y, s.data n = some y → ∀ pair ∈ y.parameters, pair.2 < s.fields.length
  parameters : ∀ q, ∀ pair ∈ (s.queries q).parameters, pair.2 < s.fields.length
  staged : ∀ (q : ℕ) (x : Objects.QueryObject), s.objects.queries[q]? = some x →
    ∀ child ∈ x.staged, s.BuiltFor child
  executions : ∀ d b, s.objects.built[d]? = some b → ∀ k x, b.2[k]? = some x →
    (∀ child ∈ x.2, s.BuiltFor child) ∧ ∀ y, s.data (.execution d k) = some y → y.query = x.1

/-- New fields change nothing about the ones that are there. -/
lemma parameters_of_prefix {fields : List PreparedQueryField} {params : FieldMap}
    (hfields : s.fields <+: fields) (hparams : ∀ pair ∈ params, pair.2 < s.fields.length) :
    ({ s with fields := fields } : State).parameters params = s.parameters params := by
  refine List.map_congr_left fun pair hpair => ?_
  obtain ⟨rest, rfl⟩ := hfields
  have hfield : (s.fields ++ rest)[pair.2]? = s.fields[pair.2]? :=
    List.getElem?_append_left (hparams pair hpair)
  rw [List.getD_eq_getElem?_getD, List.getD_eq_getElem?_getD, hfield]

lemma dataAfter_of_none {a : Objects.Action} (h : s.objects.builds a = none) :
    s.dataAfter a = s.data := by
  rw [dataAfter, h]

lemma dataAfter_of_some {a : Objects.Action} {n : DataName} {q : ℕ}
    (h : s.objects.builds a = some (n, q)) :
    s.dataAfter a = Function.update s.data n (some (s.buildQueryData q)) := by
  rw [dataAfter, h]

/-- Assigning an address is assigning the field that is there. -/
lemma parameters_assign {params : FieldMap} (hparams : ∀ pair ∈ params, pair.2 < s.fields.length)
    (index : ℕ) (field : PreparedQueryField) :
    ({ s with fields := s.fields ++ [field] } : State).parameters
        (params.assign index s.fields.length) =
      PreparedQuery.assign (s.parameters params) index field := by
  have hkept := parameters_of_prefix (s := s)
    (List.prefix_append s.fields [field])
    fun pair (hpair : pair ∈ params.filter fun pair => decide (pair.1 ≠ index)) =>
      hparams pair (List.mem_of_mem_filter hpair)
  have hfilter : (s.parameters params).filter (fun pair => decide (pair.1 ≠ index)) =
      s.parameters (params.filter fun pair => decide (pair.1 ≠ index)) :=
    List.filter_map
  rw [PreparedQuery.assign, hfilter, ← hkept, FieldMap.assign, parameters, List.map_append]
  simp [parameters]

/-- The parameters in force on a query change as the calls of its setters say. -/
lemma Sound.settings_setParameter (hI : s.Sound) (q : ℕ) (call : ParameterCall) :
    ((s.setParameter q call).settings q).parameters = call.run (s.settings q).parameters := by
  rw [ParameterCall.run, ParameterCall.apply_eq]
  unfold setParameter
  split
  · rename_i e hassigns
    rw [hassigns]
    rfl
  · rename_i hassigns
    rw [hassigns]
    show s.parameters (Function.update s.queries q
      { s.queries q with parameters := [] } q).parameters = []
    rw [Function.update_self]
    rfl
  · rename_i index field hassigns
    rw [hassigns]
    show ({ s with fields := s.fields ++ [field] } : State).parameters
      (Function.update s.queries q { s.queries q with
        parameters := (s.queries q).parameters.assign index s.fields.length } q).parameters = _
    rw [Function.update_self]
    exact parameters_assign (hI.parameters q) index field

/-- A step keeps what is read from the data. -/
lemma Sound.keeps (hI : s.Sound) (h : Step postgresNumberToLua s a t) : s.Keeps t := by
  cases h with
  | @objects a o ho =>
      intro n y hy
      refine ⟨y, ?_, rfl, rfl⟩
      show s.dataAfter a n = some y
      cases hbuilds : s.objects.builds a with
      | none => rw [dataAfter_of_none hbuilds, hy]
      | some z =>
          have hne : n ≠ z.1 := by
            rintro rfl
            exact not_named_of_builds hbuilds (hI.named z.1 y hy)
          rw [dataAfter_of_some hbuilds, Function.update_of_ne hne, hy]
  | query ho =>
      intro n y hy
      refine ⟨y, hy, rfl, ?_⟩
      have hne : y.query ≠ s.objects.queries.length := (hI.query n y hy).ne
      simp only [snapshot, Function.update_of_ne hne]
      rfl
  | setMultiStatements | execute | createResultTable => exact fun n y hy => ⟨y, hy, rfl, rfl⟩
  | @modifyQuery a q x fields hsql hprepared hfields hparameters =>
      intro n y hy
      refine ⟨y, hy, rfl, ?_⟩
      have hparams := parameters_of_prefix hfields (hI.fields n y hy)
      have hquery : (Function.update s.queries q x y.query).sql = (s.queries y.query).sql ∧
          (Function.update s.queries q x y.query).prepared = (s.queries y.query).prepared := by
        by_cases hq : y.query = q
        · rw [hq, Function.update_self]
          exact ⟨hsql, hprepared⟩
        · rw [Function.update_of_ne hq]
          exact ⟨rfl, rfl⟩
      simp only [snapshot, hquery]
      exact congrArg (fun params => Settings.mk _ _ _ params _) hparams
  | @modifyData a m x data hx hoptions hmulti =>
      intro n y hy
      by_cases hn : n = m
      · subst hn
        obtain rfl := Option.some.inj (hx.symm.trans hy)
        refine ⟨_, Function.update_self _ _ _, rfl, ?_⟩
        simp only [snapshot, hoptions, hmulti]
        rfl
      · exact ⟨y, (Function.update_of_ne hn _ _).trans hy, rfl, rfl⟩

lemma buildQueryData_query (s : State) (q : ℕ) : (s.buildQueryData q).query = q := by
  unfold buildQueryData
  split <;> rfl

/-- Data that is built points to fields of the query. -/
lemma mem_buildQueryData {q : ℕ} {pair : ℕ × ℕ} (h : pair ∈ (s.buildQueryData q).parameters) :
    pair ∈ (s.queries q).parameters := by
  unfold buildQueryData at h
  split at h
  · exact h
  · cases h

/-- The data after a step of the objects was there before, or was built by it. -/
lemma dataAfter_cases {a : Objects.Action} {n : DataName} {y : DataState}
    (h : s.dataAfter a n = some y) :
    s.data n = some y ∨ ∃ q, s.objects.builds a = some (n, q) ∧ y = s.buildQueryData q := by
  cases hbuilds : s.objects.builds a with
  | none => exact .inl (by rwa [dataAfter_of_none hbuilds] at h)
  | some z =>
      rw [dataAfter_of_some hbuilds] at h
      by_cases hn : n = z.1
      · subst hn
        rw [Function.update_self] at h
        exact .inr ⟨z.2, rfl, (Option.some.inj h).symm⟩
      · rw [Function.update_of_ne hn] at h
        exact .inl h

/-- A step that leaves the objects alone, and of the data what `Sound` is about. -/
lemma Sound.same (hI : s.Sound) (hkeeps : s.Keeps t) (hobjects : t.objects = s.objects)
    (hdata : ∀ n z, t.data n = some z →
      ∃ y, s.data n = some y ∧ z.query = y.query ∧ z.parameters = y.parameters)
    (hfields : s.fields.length ≤ t.fields.length)
    (hparameters : ∀ q, ∀ pair ∈ (t.queries q).parameters, pair.2 < t.fields.length) :
    t.Sound where
  named n z hz := by
    obtain ⟨y, hy, -⟩ := hdata n z hz
    rw [hobjects]
    exact hI.named n y hy
  query n z hz := by
    obtain ⟨y, hy, hquery, -⟩ := hdata n z hz
    rw [hobjects, hquery]
    exact hI.query n y hy
  fields n z hz pair hpair := by
    obtain ⟨y, hy, -, hparams⟩ := hdata n z hz
    exact (hI.fields n y hy pair (hparams ▸ hpair)).trans_le hfields
  parameters := hparameters
  staged q x hx child hchild :=
    (hI.staged q x (hobjects ▸ hx) child hchild).mono hkeeps
  executions d b hb k x hx := by
    obtain ⟨hchildren, hown⟩ := hI.executions d b (hobjects ▸ hb) k x hx
    refine ⟨fun child hchild => (hchildren child hchild).mono hkeeps, fun z hz => ?_⟩
    obtain ⟨y, hy, hquery, -⟩ := hdata _ z hz
    exact hquery.trans (hown y hy)

/-- What was built before a step was built for the query beside it. -/
lemma Sound.executions_of_none (hI : s.Sound) (hkeeps : s.Keeps t) {a : Objects.Action}
    (hdata : t.data = s.dataAfter a)
    (hnone : ∀ d k q, s.objects.builds a ≠ some (.execution d k, q))
    {d k : ℕ} {b : ℕ × List (ℕ × List (ℕ × ℕ))} (hb : s.objects.built[d]? = some b)
    {x : ℕ × List (ℕ × ℕ)} (hx : b.2[k]? = some x) :
    (∀ child ∈ x.2, t.BuiltFor child) ∧ ∀ y, t.data (.execution d k) = some y → y.query = x.1 := by
  obtain ⟨hchildren, hown⟩ := hI.executions d b hb k x hx
  refine ⟨fun child hchild => (hchildren child hchild).mono hkeeps, fun y hy => ?_⟩
  rw [hdata] at hy
  rcases dataAfter_cases hy with hy | ⟨q, hbuilds, -⟩
  · exact hown y hy
  · exact absurd hbuilds (hnone d k q)

lemma Sound.staged_step (hI : s.Sound) (hkeeps : s.Keeps t) {a : Objects.Action}
    (h : Objects.machine.next s.objects a = some t.objects) (hdata : t.data = s.dataAfter a)
    {q : ℕ} {x : Objects.QueryObject} (hx : t.objects.queries[q]? = some x) {child : ℕ × ℕ}
    (hchild : child ∈ x.staged) : t.BuiltFor child := by
  have hclears {y : Objects.QueryObject} (hy : s.objects.queries[q]? = some y)
      (hyx : y.Clears x) : t.BuiltFor child := by
    rcases hyx.staged with hsame | hempty
    · exact (hI.staged q y hy child (hsame ▸ hchild)).mono hkeeps
    · rw [hempty] at hchild
      cases hchild
  cases Objects.stagingStep h with
  | unstages _ hunstages =>
      obtain ⟨y, hy, hyx⟩ := hunstages.queries q x hx
      exact hclears hy hyx
  | create _ _ _ hqueries => exact hclears (hqueries ▸ hx) (.refl x)
  | @query z _ hz _ _ hqueries =>
      rw [hqueries] at hx
      rcases List.mem_append.1 (List.mem_of_getElem? hx) with hmem | hmem
      · obtain ⟨i, hi⟩ := List.mem_iff_getElem?.1 hmem
        exact (hI.staged i x hi child hchild).mono hkeeps
      · rw [List.mem_singleton.1 hmem, hz] at hchild
        cases hchild
  | @addQuery u q' hbuilds hq hstaged _ hqueries =>
      rw [hqueries, List.getElem?_modify] at hx
      obtain ⟨y, hy, rfl⟩ := Option.map_eq_some_iff.1 hx
      by_cases hu : u = q
      · rw [if_pos hu, Objects.QueryObject.staged, List.map_append] at hchild
        rcases List.mem_append.1 hchild with hold | hnew
        · exact (hI.staged q y hy child hold).mono hkeeps
        · -- the data was built by this step
          rw [List.mem_singleton.1 hnew]
          refine ⟨s.buildQueryData q', ?_, s.buildQueryData_query q'⟩
          rw [hdata, dataAfter_of_some hbuilds]
          exact Function.update_self _ _ _
      · rw [if_neg hu] at hchild
        exact (hI.staged q y hy child hchild).mono hkeeps
  | start _ _ _ _ _ _ hv hstart =>
      rw [hstart] at hx
      obtain ⟨y, hy, hyx⟩ := hv.queries q x hx
      exact hclears hy hyx

lemma Sound.executions_step (hI : s.Sound) (hkeeps : s.Keeps t) {a : Objects.Action}
    (hr : Objects.machine.Reachable s.objects)
    (h : Objects.machine.next s.objects a = some t.objects) (hdata : t.data = s.dataAfter a)
    {d k : ℕ} {b : ℕ × List (ℕ × List (ℕ × ℕ))} (hb : t.objects.built[d]? = some b)
    {x : ℕ × List (ℕ × ℕ)} (hx : b.2[k]? = some x) :
    (∀ child ∈ x.2, t.BuiltFor child) ∧ ∀ y, t.data (.execution d k) = some y → y.query = x.1 := by
  cases Objects.stagingStep h with
  | unstages hnone hunstages =>
      have hbuilt : t.objects.built = s.objects.built := hunstages.built
      exact hI.executions_of_none hkeeps hdata (by simp [hnone]) (hbuilt ▸ hb) hx
  | create hnone _ hdatabases =>
      have hbuilt : t.objects.built =
          s.objects.built ++ [({} : Objects.DatabaseObject).built] := by
        rw [Objects.State.built, hdatabases, List.map_append]
        rfl
      rw [hbuilt] at hb
      by_cases hd : d < s.objects.built.length
      · rw [List.getElem?_append_left hd] at hb
        exact hI.executions_of_none hkeeps hdata (by simp [hnone]) hb hx
      · rw [List.getElem?_append_right (Nat.not_lt.1 hd)] at hb
        rw [List.mem_singleton.1 (List.mem_of_getElem? hb)] at hx
        cases hx
  | query hnone _ _ hdatabases =>
      refine hI.executions_of_none hkeeps hdata (by simp [hnone]) ?_ hx
      rwa [Objects.State.built, ← hdatabases]
  | addQuery hbuilds _ _ hdatabases =>
      refine hI.executions_of_none hkeeps hdata (by simp [hbuilds]) ?_ hx
      rwa [Objects.State.built, ← hdatabases]
  | @start q z o layer e v hz ho hbuilds hlayer hquery hqueries hv hstart =>
      have hbuilt := Objects.State.built_start ho hlayer hquery hqueries hv
      rw [← hstart] at hbuilt
      rw [hbuilt, List.getElem?_modify] at hb
      obtain ⟨c, hc, rfl⟩ := Option.map_eq_some_iff.1 hb
      have hnew {d k q' : ℕ} (h : s.objects.builds a = some (.execution d k, q')) :
          d = z.database ∧ k = o.layer.database.started ∧ q' = q := by
        rw [hbuilds] at h
        split at h
        · cases h
        · cases h
          exact ⟨rfl, rfl, rfl⟩
      -- an execution that was there before
      have hold (hk : c.2[k]? = some x) (hd : z.database = d → k ≠ o.layer.database.started) :
          (∀ child ∈ x.2, t.BuiltFor child) ∧
            ∀ y, t.data (.execution d k) = some y → y.query = x.1 := by
        obtain ⟨hchildren, hown⟩ := hI.executions d c hc k x hk
        refine ⟨fun child hchild => (hchildren child hchild).mono hkeeps, fun y hy => ?_⟩
        rw [hdata] at hy
        rcases dataAfter_cases hy with hy | ⟨q', hq', -⟩
        · exact hown y hy
        · obtain ⟨hd', hk', -⟩ := hnew hq'
          exact absurd hk' (hd hd'.symm)
      by_cases hd : z.database = d
      · obtain rfl : o.built = c := by
          rw [← hd, Objects.State.built_of_database ho] at hc
          exact Option.some.inj hc
        have hcount : o.built.2.length = o.layer.database.started :=
          Objects.State.counted hr _ (List.mem_of_getElem? hc)
        rw [if_pos hd] at hx
        have hx : (o.built.2 ++ [(q, z.staged)])[k]? = some x := hx
        by_cases hk : k < o.built.2.length
        · rw [List.getElem?_append_left hk] at hx
          exact hold hx fun _ => (hcount ▸ hk).ne
        · rw [List.getElem?_append_right (Nat.not_lt.1 hk)] at hx
          have hzero : k - o.built.2.length = 0 := by
            have hlt := (List.getElem?_eq_some_iff.1 hx).1
            rw [List.length_singleton] at hlt
            omega
          rw [hzero] at hx
          obtain rfl : (q, z.staged) = x := Option.some.inj hx
          refine ⟨fun child hchild => (hI.staged q z hz child hchild).mono hkeeps, fun y hy => ?_⟩
          rw [hdata] at hy
          rcases dataAfter_cases hy with hy | ⟨q', hq', rfl⟩
          · -- no data was built for the new execution before
            obtain ⟨b, hb, hlt⟩ := hI.named _ y hy
            obtain rfl := Option.some.inj (hc.symm.trans hb)
            have hlt : k < o.layer.database.started := hlt
            omega
          · rw [buildQueryData_query]
            exact (hnew hq').2.2
      · rw [if_neg hd] at hx
        exact hold hx fun heq => absurd heq hd

lemma Sound.objects (hI : s.Sound) (hkeeps : s.Keeps t) {a : Objects.Action}
    (hr : Objects.machine.Reachable s.objects)
    (h : Objects.machine.next s.objects a = some t.objects) (hdata : t.data = s.dataAfter a)
    (hfields : t.fields = s.fields)
    (hparameters : ∀ q, ∀ pair ∈ (t.queries q).parameters, pair.2 < s.fields.length) :
    t.Sound where
  named n y hy := by
    rw [hdata] at hy
    rcases dataAfter_cases hy with hy | ⟨q, hbuilds, -⟩
    · exact (hI.named n y hy).step h
    · exact (named_of_builds hbuilds h).1
  query n y hy := by
    refine lt_of_lt_of_le ?_ (length_le_of_next h)
    rw [hdata] at hy
    rcases dataAfter_cases hy with hy | ⟨q, hbuilds, rfl⟩
    · exact hI.query n y hy
    · rw [buildQueryData_query]
      exact (named_of_builds hbuilds h).2
  fields n y hy pair hpair := by
    rw [hfields]
    rw [hdata] at hy
    rcases dataAfter_cases hy with hy | ⟨q, -, rfl⟩
    · exact hI.fields n y hy pair hpair
    · exact hI.parameters q pair (mem_buildQueryData hpair)
  parameters q pair hpair := by
    rw [hfields]
    exact hparameters q pair hpair
  staged q x hx child hchild := hI.staged_step hkeeps h hdata hx hchild
  executions d b hb k x hx := hI.executions_step hkeeps hr h hdata hb hx

/-- The data beside a query that is being executed was built for it. -/
lemma Sound.executing (hI : s.Sound) {d q : ℕ} {n : DataName} (h : s.executing d = some (q, n))
    {y : DataState} (hy : s.data n = some y) : y.query = q := by
  obtain ⟨o, ho, h⟩ := Option.bind_eq_some_iff.1 h
  have hbuilt := Objects.State.built_of_database ho
  split at h
  · rename_i e todo hpc
    obtain ⟨x, hx, hz⟩ := Option.map_eq_some_iff.1 h
    obtain ⟨rfl, rfl⟩ := Prod.mk.inj hz
    have hx : o.built.2[e.data]? = some (x.query, x.queries) := by
      rw [Objects.DatabaseObject.built, List.getElem?_map, hx]
      rfl
    exact (hI.executions d _ hbuilt e.data _ hx).2 y hy
  · rename_i e todo i hpc
    obtain ⟨x, hx, h⟩ := Option.bind_eq_some_iff.1 h
    obtain ⟨child, hchild, hz⟩ := Option.map_eq_some_iff.1 h
    obtain ⟨rfl, rfl⟩ := Prod.mk.inj hz
    have hx : o.built.2[e.data]? = some (x.query, x.queries) := by
      rw [Objects.DatabaseObject.built, List.getElem?_map, hx]
      rfl
    obtain ⟨z, hz, hquery⟩ :=
      (hI.executions d _ hbuilt e.data _ hx).1 child (List.mem_of_getElem? hchild)
    obtain rfl := Option.some.inj (hz.symm.trans hy)
    exact hquery
  · cases h

/-- The parameters of the queries, after one of them has changed. -/
lemma forall_parameters_update {P : ℕ × ℕ → Prop} {queries : ℕ → QueryState} {q : ℕ}
    {x : QueryState} (hqueries : ∀ q, ∀ pair ∈ (queries q).parameters, P pair)
    (hx : ∀ pair ∈ x.parameters, P pair) (q' : ℕ) :
    ∀ pair ∈ (Function.update queries q x q').parameters, P pair := by
  intro pair hpair
  by_cases hq : q' = q
  · rw [hq, Function.update_self] at hpair
    exact hx pair hpair
  · rw [Function.update_of_ne hq] at hpair
    exact hqueries q' pair hpair

lemma Sound.step (hI : s.Sound) (hr : Objects.machine.Reachable s.objects)
    (h : Step postgresNumberToLua s a t) : t.Sound := by
  have hkeeps := hI.keeps h
  have hall : ∀ n z, s.data n = some z →
      ∃ y, s.data n = some y ∧ z.query = y.query ∧ z.parameters = y.parameters :=
    fun n z hz => ⟨z, hz, rfl, rfl⟩
  cases h with
  | objects ho => exact hI.objects hkeeps hr ho rfl rfl hI.parameters
  | @query d isTransaction prepared sql o ho =>
      exact hI.objects hkeeps hr ho rfl rfl
        (forall_parameters_update hI.parameters fun pair hpair => absurd hpair List.not_mem_nil)
  | setMultiStatements | execute | createResultTable =>
      exact hI.same hkeeps rfl hall le_rfl hI.parameters
  | @modifyQuery a q x fields hsql hprepared hfields hparameters =>
      have hlength := hfields.length_le
      refine hI.same hkeeps rfl hall hlength (forall_parameters_update (fun q' pair hpair => ?_) ?_)
      · exact (hI.parameters q' pair hpair).trans_le hlength
      · intro pair hpair
        rcases hparameters pair hpair with hold | hnew
        · exact (hI.parameters q pair hold).trans_le hlength
        · exact hnew
  | @modifyData a n y data hy =>
      refine hI.same hkeeps rfl (fun m z hz => ?_) le_rfl hI.parameters
      by_cases hm : m = n
      · subst hm
        have hz : Function.update s.data m (some { y with toQueryData := data }) m = some z := hz
        rw [Function.update_self] at hz
        obtain rfl := Option.some.inj hz
        exact ⟨y, hy, rfl, rfl⟩
      · exact ⟨z, (Function.update_of_ne hm _ _).symm.trans hz, rfl, rfl⟩

variable (postgresNumberToLua) in
/-- What was handed to libpq, and the tables that were made, are those with the settings that
are read from the data. -/
structure Recorded (s : State) : Prop where
  handed : ∀ n r, (n, r) ∈ s.handed → ∃ y, s.data n = some y ∧ r = (s.snapshot y).request n
  shown : ∀ n result table, (n, result, table) ∈ s.shown →
    ∃ y, s.data n = some y ∧ table = (s.snapshot y).table postgresNumberToLua result

lemma Recorded.step (hI : s.Recorded postgresNumberToLua) (hsound : s.Sound)
    (h : Step postgresNumberToLua s a t) : t.Recorded postgresNumberToLua := by
  have hkeeps := hsound.keeps h
  have hhanded : ∀ n r, (n, r) ∈ s.handed →
      ∃ y, t.data n = some y ∧ r = (t.snapshot y).request n := by
    intro n r hr
    obtain ⟨y, hy, hrequest⟩ := hI.handed n r hr
    obtain ⟨z, hz, -, hsnapshot⟩ := hkeeps n y hy
    exact ⟨z, hz, hrequest.trans (by rw [hsnapshot])⟩
  have hshown : ∀ n result table, (n, result, table) ∈ s.shown →
      ∃ y, t.data n = some y ∧ table = (t.snapshot y).table postgresNumberToLua result := by
    intro n result table htable
    obtain ⟨y, hy, hresult⟩ := hI.shown n result table htable
    obtain ⟨z, hz, -, hsnapshot⟩ := hkeeps n y hy
    exact ⟨z, hz, hresult.trans (by rw [hsnapshot])⟩
  cases h with
  | @execute d fuel q n y r hexecuting hy hr =>
      refine ⟨fun m r' hr' => ?_, hshown⟩
      rcases List.mem_append.1 hr' with hold | hnew
      · exact hhanded m r' hold
      · obtain ⟨rfl, rfl⟩ := Prod.mk.inj (List.mem_singleton.1 hnew)
        obtain rfl := hsound.executing hexecuting hy
        exact ⟨y, hy, request_eq hr⟩
  | @createResultTable n y hy =>
      refine ⟨hhanded, fun m result table htable => ?_⟩
      rcases List.mem_append.1 htable with hold | hnew
      · exact hshown m result table hold
      · obtain ⟨rfl, hrest⟩ := Prod.mk.inj (List.mem_singleton.1 hnew)
        obtain ⟨rfl, rfl⟩ := Prod.mk.inj hrest
        exact ⟨y, hy, table_eq postgresNumberToLua s y⟩
  | _ => exact ⟨hhanded, hshown⟩

/-- What holds in every state. -/
structure Invariant (postgresNumberToLua : Text → Double) (s : State) : Prop where
  objects : Objects.machine.Reachable s.objects
  sound : s.Sound
  recorded : s.Recorded postgresNumberToLua

theorem invariant (h : (machine postgresNumberToLua).Reachable s) :
    s.Invariant postgresNumberToLua := by
  have hsound : Sound {} := by
    refine ⟨nofun, nofun, nofun, fun _ _ h => absurd h List.not_mem_nil, ?_, ?_⟩
    · exact fun q x hx => absurd hx (by simp)
    · exact fun d b hb => absurd hb (by simp [Objects.State.built])
  have hrecorded : Recorded postgresNumberToLua {} :=
    ⟨fun _ _ h => absurd h List.not_mem_nil, fun _ _ _ h => absurd h List.not_mem_nil⟩
  refine h.invariant (I := Invariant postgresNumberToLua) ⟨.init, hsound, hrecorded⟩
    fun s t a _ hI _ hnext => ?_
  have hstep := step_of_next hnext
  refine ⟨?_, hI.sound.step hI.objects hstep, hI.recorded.step hI.sound hstep⟩
  cases hstep with
  | objects ho => exact .step hI.objects trivial ho
  | query ho => exact .step hI.objects trivial ho
  | _ => exact hI.objects

/-- Over a run, what is read from data stays the same. -/
theorem keeps_of_run {as : List Action} (hs : (machine postgresNumberToLua).Reachable s)
    (h : (machine postgresNumberToLua).run s as = some t) : s.Keeps t :=
  hs.related Keeps.refl (fun _ _ _ => Keeps.trans)
    (fun _ _ _ hr hnext => (invariant hr).sound.keeps (step_of_next hnext)) h

end State

/-- **Executions use the settings of the moment they were started.**  Whatever happens after
`start` of a query, or after `addQuery`, whatever is handed to libpq for the data that it built
is the request with the settings that were in force on the query and its database at that time,
and every table that is made of its results is the one with the options that were. -/
theorem executions_use_settings {postgresNumberToLua : Text → Double} {s t u : State}
    {a : Objects.Action} {as : List Action} {n : DataName} {q : ℕ}
    (hs : (machine postgresNumberToLua).Reachable s) (hbuilds : s.objects.builds a = some (n, q))
    (hstep : (machine postgresNumberToLua).next s (.objects a) = some t)
    (hrun : (machine postgresNumberToLua).run t as = some u) :
    (∀ request, (n, request) ∈ u.handed → request = (s.settings q).request n) ∧
      ∀ result table, (n, result, table) ∈ u.shown →
        table = (s.settings q).table postgresNumberToLua result := by
  have ht : (machine postgresNumberToLua).Reachable t := .step hs trivial hstep
  have hu : (machine postgresNumberToLua).Reachable u := .of_run ht hrun
  obtain ⟨hrequest, htable⟩ := s.snapshot_buildQueryData q n postgresNumberToLua
  -- the data has the settings in force, and keeps them
  obtain ⟨y, hy, hsnapshot⟩ : ∃ y, u.data n = some y ∧
      u.snapshot y = s.snapshot (s.buildQueryData q) := by
    obtain ⟨o, ho, rfl⟩ := objects_of_next hstep
    have hdata : s.dataAfter a n = some (s.buildQueryData q) := by
      rw [State.dataAfter_of_some hbuilds, Function.update_self]
    obtain ⟨y, hy, -, hsame⟩ := State.keeps_of_run ht hrun n _ hdata
    exact ⟨y, hy, hsame⟩
  have hrecorded := (State.invariant hu).recorded
  constructor
  · intro request hhanded
    obtain ⟨z, hz, rfl⟩ := hrecorded.handed n request hhanded
    obtain rfl := Option.some.inj (hy.symm.trans hz)
    rw [hsnapshot, hrequest]
  · intro result table hshown
    obtain ⟨z, hz, rfl⟩ := hrecorded.shown n result table hshown
    obtain rfl := Option.some.inj (hy.symm.trans hz)
    rw [hsnapshot, htable]

/-! ### A run -/

/-- The index of the first parameter. -/
def firstIndex : Double := .finite false 1

/-- A database connects; a prepared query, a raw query and a transaction are made, and the
prepared query gets a parameter and numeric fields. -/
def settingSteps : List Action :=
  Objects.connectSteps.map .objects ++
    [.query 0 false true "SELECT $1".toList, .query 0 false false "A; B".toList,
      .query 0 true false [], .setParameter 0 (.setString firstIndex "x".toList),
      .setOption 0 OPTION_NUMERIC_FIELDS true]

/-- A query is started. -/
def startCall (q : ℕ) : Objects.Action := .call (.start q ⟨true, false, false, false⟩)

def valueResult : StatementResult where
  rows :=
    { columns := ["a".toList], columnTypes := [.string], rows := [⟨[false], ["v".toList]⟩] }

/-- The worker thread takes an execution, whose statement is handed to libpq. -/
def handSteps (fuel : ℕ) : List Action :=
  (Objects.workerSteps 10).map .objects ++ [.execute 0 fuel]

/-- Everything is set again before the execution is taken: first to other values, with which the
query is staged in the transaction and the raw query started, and then once more. -/
def overtakingSteps : List Action :=
  (Objects.mainSteps 4).map .objects ++
    [.setParameter 0 (.setString firstIndex "y".toList),
      .setOption 0 OPTION_NUMERIC_FIELDS false, .objects (.call (.addQuery 2 0)),
      .objects (startCall 1)] ++ (Objects.mainSteps 4).map .objects ++
    [.setMultiStatements 0 false, .setParameter 0 .clearParameters] ++ handSteps 9 ++
    [.appendResult 0 valueResult, .objects (.worker 0 (.left none))] ++
    (Objects.workerSteps 9).map .objects ++ [.createResultTable (.execution 0 0)] ++ handSteps 0

theorem executions_use_settings_overtakingRun :
    ∃ s t u, (machine fun _ => .nan).run {} settingSteps = some s ∧
      (machine fun _ => .nan).next s (.objects (startCall 0)) = some t ∧
      (machine fun _ => .nan).run t overtakingSteps = some u ∧
      u.handed = [(.execution 0 0, .queryParams "SELECT $1".toList [some "x".toList]),
        (.execution 0 1, .query "A; B".toList)] ∧
      u.shown.map (·.2.2) = [[[(.index 1, .string "v".toList)]]] ∧
      (u.settings 0).parameters = [] ∧
      (∀ request, (.execution 0 0, request) ∈ u.handed →
        request = (s.settings 0).request (.execution 0 0)) ∧
      ∀ result table, (.execution 0 0, result, table) ∈ u.shown →
        table = (s.settings 0).table (fun _ => .nan) result := by
  have hend : ((machine fun _ => .nan).run {} settingSteps).bind (fun s =>
      ((machine fun _ => .nan).next s (.objects (startCall 0))).bind fun t =>
        ((machine fun _ => .nan).run t overtakingSteps).map fun u =>
          decide (s.objects.builds (startCall 0) = some (.execution 0 0, 0)) &&
            decide (u.handed = [(.execution 0 0, .queryParams "SELECT $1".toList [some "x".toList]),
              (.execution 0 1, .query "A; B".toList)]) &&
            decide (u.shown.map (·.2.2) = [[[(.index 1, .string "v".toList)]]]) &&
            decide ((u.settings 0).parameters = [])) = some true := by decide +kernel
  obtain ⟨s, hs, hend⟩ := Option.bind_eq_some_iff.1 hend
  obtain ⟨t, ht, hend⟩ := Option.bind_eq_some_iff.1 hend
  obtain ⟨u, hu, hend⟩ := Option.map_eq_some_iff.1 hend
  simp only [Bool.and_eq_true, decide_eq_true_eq] at hend
  obtain ⟨⟨⟨hbuilds, hhanded⟩, hshown⟩, hparameters⟩ := hend
  exact ⟨s, t, u, hs, ht, hu, hhanded, hshown, hparameters,
    executions_use_settings (Machine.reachable_of_run hs) hbuilds ht hu⟩

end GmsvPg.Snapshot
