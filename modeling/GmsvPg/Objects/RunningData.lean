/-
# Adding and finishing staged data

`start` of a transaction puts the staged data of each query at the end of the
`runningQueryData` of the query; `finishQueryData` takes an element away where it is at the
front, and otherwise wherever it occurs.  Here is what becomes of a list to which some data was
added, once all of it was finished again: the list is as before exactly when none of the data
was in it already, or the whole of the list is made up of the data, in order.
-/
import GmsvPg.Objects.Machine
import Mathlib.Data.List.Perm.Subperm

namespace GmsvPg.Objects

/-- `finishQueryData` for some data, in order. -/
def finishAll (staged : List Data) (l : List Data) : List Data :=
  staged.foldl (fun l data => finishQueryData data l) l

lemma finishQueryData_front (data : Data) (l : List Data) :
    finishQueryData data (data :: l) = l := if_pos rfl

/-- An element that is not at the front is taken away wherever it occurs. -/
lemma finishQueryData_of_ne {data : Data} {l : List Data} (h : l.head? ≠ some data) :
    finishQueryData data l = l.filter fun x => x ≠ data := by
  cases l with
  | nil => rfl
  | cons front rest => exact if_neg fun heq => h (congrArg some heq)

lemma filter_ne_eq_self {data : Data} {l : List Data} (h : data ∉ l) :
    (l.filter fun x => x ≠ data) = l := by
  refine List.filter_eq_self.2 fun x hx => ?_
  simpa using fun heq : x = data => h (heq ▸ hx)

lemma finishQueryData_of_notMem {data : Data} {l : List Data} (h : data ∉ l) :
    finishQueryData data l = l := by
  rw [finishQueryData_of_ne fun hhead => h (List.mem_of_head? hhead), filter_ne_eq_self h]

lemma finishQueryData_sublist (data : Data) (l : List Data) :
    (finishQueryData data l).Sublist l := by
  by_cases hhead : l.head? = some data
  · obtain ⟨rest, rfl⟩ := List.head?_eq_some_iff.1 hhead
    rw [finishQueryData_front]
    exact List.sublist_cons_self data rest
  · rw [finishQueryData_of_ne hhead]
    exact List.filter_sublist

lemma finishAll_sublist (S l : List Data) : (finishAll S l).Sublist l := by
  induction S generalizing l with
  | nil => exact List.Sublist.refl l
  | cons data S ih =>
      exact (ih (finishQueryData data l)).trans (finishQueryData_sublist data l)

/-- Data that is there once is there no more. -/
lemma notMem_finishQueryData {data : Data} {l : List Data} (h : l.Nodup) :
    data ∉ finishQueryData data l := by
  by_cases hhead : l.head? = some data
  · obtain ⟨rest, rfl⟩ := List.head?_eq_some_iff.1 hhead
    rw [finishQueryData_front]
    exact (List.nodup_cons.1 h).1
  · rw [finishQueryData_of_ne hhead]
    simp

/-- Data that was just put at the end of a list of other data. -/
lemma finishQueryData_append {data : Data} {l : List Data} (h : data ∉ l) :
    finishQueryData data (l ++ [data]) = l := by
  cases l with
  | nil => exact finishQueryData_front data []
  | cons front rest =>
      have hne : (front :: rest ++ [data]).head? ≠ some data := by
        simpa using fun heq : front = data => h (heq ▸ List.mem_cons_self)
      rw [finishQueryData_of_ne hne, List.filter_append, filter_ne_eq_self h]
      simp

/-! ### Staged data -/

/-- One element of the staged data is finished: what was in the list before (`P`) is followed by
what was staged and not taken away (`D`) and by what is still to be finished. -/
lemma finishQueryData_middle {data : Data} {P D S : List Data} (hD : data ∉ D) (hS : data ∉ S)
    (hhead : P.head? ≠ some data) :
    finishQueryData data (P ++ D ++ data :: S) = (P.filter fun x => x ≠ data) ++ D ++ S := by
  cases hPD : P ++ D with
  | nil =>
      obtain ⟨rfl, rfl⟩ := List.append_eq_nil_iff.1 hPD
      exact finishQueryData_front data S
  | cons front rest =>
      have hne : (front :: rest ++ data :: S).head? ≠ some data := by
        cases P with
        | nil =>
            obtain rfl : D = front :: rest := hPD
            simpa using fun heq : front = data => hD (heq ▸ List.mem_cons_self)
        | cons p P =>
            obtain ⟨rfl, -⟩ := List.cons.inj hPD
            simpa using hhead
      have hcons : ((data :: S).filter fun x => x ≠ data) = S := by
        rw [List.filter_cons_of_neg (by simp), filter_ne_eq_self hS]
      rw [finishQueryData_of_ne hne, ← hPD, List.filter_append, List.filter_append,
        filter_ne_eq_self hD, hcons]

/-- What is at the front of the list before is taken away there, and stays behind at the end. -/
lemma finishAll_front (data : Data) (P D S : List Data) :
    finishAll (data :: S) (data :: P ++ D ++ data :: S) =
      finishAll S (P ++ (D ++ [data]) ++ S) := by
  have hsplit : data :: P ++ D ++ data :: S = data :: (P ++ (D ++ [data]) ++ S) := by simp
  rw [hsplit, finishAll, List.foldl_cons, finishQueryData_front]
  rfl

lemma finishAll_middle {data : Data} {P D S : List Data} (hD : data ∉ D) (hS : data ∉ S)
    (hhead : P.head? ≠ some data) :
    finishAll (data :: S) (P ++ D ++ data :: S) =
      finishAll S ((P.filter fun x => x ≠ data) ++ D ++ S) := by
  rw [finishAll, List.foldl_cons, finishQueryData_middle hD hS hhead]
  rfl

/-- If the list begins with staged data, in order, and there is no other in it, then this goes
behind the rest. -/
lemma finishAll_rotate {A B D S : List Data} (hA : A.Sublist S) (hB : ∀ x ∈ B, x ∉ S)
    (hD : ∀ x ∈ D, x ∉ S) (hS : S.Nodup) : finishAll S (A ++ B ++ D ++ S) = B ++ D ++ A := by
  induction S generalizing A D with
  | nil =>
      obtain rfl := List.sublist_nil.1 hA
      show [] ++ B ++ D ++ [] = B ++ D ++ []
      simp
  | cons data S ih =>
      obtain ⟨hdata, hS⟩ := List.nodup_cons.1 hS
      have hB' : ∀ x ∈ B, x ∉ S := fun x hx hmem => hB x hx (List.mem_cons_of_mem data hmem)
      have hD' : ∀ x ∈ D, x ∉ S := fun x hx hmem => hD x hx (List.mem_cons_of_mem data hmem)
      have hdataB : data ∉ B := fun hmem => hB data hmem List.mem_cons_self
      have hdataD : data ∉ D := fun hmem => hD data hmem List.mem_cons_self
      by_cases hhead : A.head? = some data
      · obtain ⟨A, rfl⟩ := List.head?_eq_some_iff.1 hhead
        have hD'' : ∀ x ∈ D ++ [data], x ∉ S := by
          intro x hx
          rcases List.mem_append.1 hx with hx | hx
          · exact hD' x hx
          · rw [List.mem_singleton.1 hx]
            exact hdata
        have hrest := ih (D := D ++ [data]) (List.cons_sublist_cons.1 hA) hB' hD'' hS
        have hfront := finishAll_front data (A ++ B) D S
        rw [List.cons_append, hfront, hrest]
        simp
      · -- it is not in the list before, so only what was staged is taken away
        have hA' : A.Sublist S := by
          cases hA with
          | cons _ hA => exact hA
          | cons_cons _ hA => exact absurd rfl hhead
        have hdataA : data ∉ A := fun hmem => hdata (hA'.subset hmem)
        have hdataAB : data ∉ A ++ B := by simp [hdataA, hdataB]
        have hmiddle := finishAll_middle (P := A ++ B) (D := D) hdataD hdata
          fun hmem => hdataAB (List.mem_of_head? hmem)
        rw [hmiddle, filter_ne_eq_self hdataAB]
        exact ih hA' hB' hD' hS

/-- What is left of the list is some of what was in it; and if it is all of that, then the list
began with staged data, in order, and there was no other in it. -/
lemma finishAll_subperm {P D S : List Data} (hP : P.Nodup) (hD : ∀ x ∈ D, x ∉ S) (hS : S.Nodup) :
    (finishAll S (P ++ D ++ S)).Subperm (P ++ D) ∧
      ((finishAll S (P ++ D ++ S)).length = (P ++ D).length →
        ∃ A B, P = A ++ B ∧ A.Sublist S ∧ ∀ x ∈ B, x ∉ S) := by
  induction S generalizing P D with
  | nil =>
      have hall : finishAll [] (P ++ D ++ []) = P ++ D := List.append_nil _
      rw [hall]
      exact ⟨List.Subperm.refl _, fun _ => ⟨[], P, rfl, List.nil_sublist _, nofun⟩⟩
  | cons data S ih =>
      obtain ⟨hdata, hS⟩ := List.nodup_cons.1 hS
      have hD' : ∀ x ∈ D, x ∉ S := fun x hx hmem => hD x hx (List.mem_cons_of_mem data hmem)
      have hdataD : data ∉ D := fun hmem => hD data hmem List.mem_cons_self
      by_cases hhead : P.head? = some data
      · obtain ⟨P, rfl⟩ := List.head?_eq_some_iff.1 hhead
        obtain ⟨hdataP, hP⟩ := List.nodup_cons.1 hP
        have hD'' : ∀ x ∈ D ++ [data], x ∉ S := by
          intro x hx
          rcases List.mem_append.1 hx with hx | hx
          · exact hD' x hx
          · rw [List.mem_singleton.1 hx]
            exact hdata
        obtain ⟨hsubperm, hwhole⟩ := ih (D := D ++ [data]) hP hD'' hS
        have hperm : (P ++ (D ++ [data])).Perm (data :: P ++ D) := by
          rw [← List.append_assoc]
          exact List.perm_append_singleton data (P ++ D)
        rw [finishAll_front]
        refine ⟨hsubperm.trans hperm.subperm, fun hlength => ?_⟩
        obtain ⟨A, B, rfl, hA, hB⟩ := hwhole (hlength.trans hperm.length_eq.symm)
        refine ⟨data :: A, B, rfl, hA.cons_cons data, fun x hx hmem => ?_⟩
        rcases List.mem_cons.1 hmem with rfl | hmem
        · exact hdataP (List.mem_append_right A hx)
        · exact hB x hx hmem
      · rw [finishAll_middle hdataD hdata hhead]
        have hfilter : (P.filter fun x => x ≠ data).Sublist P := List.filter_sublist
        obtain ⟨hsubperm, hwhole⟩ := ih (hfilter.nodup hP) hD' hS
        have hsublist := hfilter.append (List.Sublist.refl D)
        refine ⟨hsubperm.trans hsublist.subperm, fun hlength => ?_⟩
        -- nothing may have been taken away
        have hle := hsubperm.length_le
        have hsame : (P.filter fun x => x ≠ data) = P := by
          refine hfilter.eq_of_length_le ?_
          rw [hlength, List.length_append, List.length_append] at hle
          omega
        rw [hsame] at hwhole hlength
        obtain ⟨A, B, hAB, hA, hB⟩ := hwhole hlength
        refine ⟨A, B, hAB, hA.cons data, fun x hx hmem => ?_⟩
        rcases List.mem_cons.1 hmem with rfl | hmem
        · have hx' : x ∈ P.filter fun y => y ≠ x := by
            rw [hsame, hAB]
            exact List.mem_append_right A hx
          exact absurd hx' (by simp)
        · exact hB x hx hmem

/-- **Staging and finishing.**  The list is as it was exactly when none of the data was in it, or
it is made up of the data, in order. -/
theorem finishAll_append {L S : List Data} (hL : L.Nodup) (hS : S.Nodup) :
    finishAll S (L ++ S) = L ↔ (∀ x ∈ S, x ∉ L) ∨ L.Sublist S := by
  have hnone : ∀ x ∈ ([] : List Data), x ∉ S := by simp
  constructor
  · intro heq
    obtain ⟨A, B, rfl, hA, hB⟩ := (finishAll_subperm (D := []) hL hnone hS).2
      (by rw [List.append_nil, heq])
    have hrotate := finishAll_rotate (D := []) hA hB hnone hS
    rw [List.append_nil, List.append_nil, heq] at hrotate
    -- what begins and ends with the same element has it twice
    cases hA' : A with
    | nil => exact .inl fun x hx hmem => hB x (by simpa [hA'] using hmem) hx
    | cons a A' =>
        cases hB' : B with
        | nil =>
            rw [← hA', List.append_nil]
            exact .inr hA
        | cons b B' =>
            rw [hA', hB'] at hrotate
            obtain ⟨rfl, -⟩ := List.cons.inj hrotate
            rw [hA', hB'] at hL
            exact absurd rfl ((List.nodup_append.1 hL).2.2 a List.mem_cons_self a List.mem_cons_self)
  · rintro (hdisjoint | hsublist)
    · have hrotate := finishAll_rotate (A := []) (D := []) (List.nil_sublist S)
        (fun x hx hmem => hdisjoint x hmem hx) hnone hS
      simpa using hrotate
    · have hrotate := finishAll_rotate (B := []) (D := []) hsublist hnone hnone hS
      simpa using hrotate

/-- What is left after staging and finishing. -/
lemma finishAll_append_subperm {L S : List Data} (hL : L.Nodup) (hS : S.Nodup) :
    (finishAll S (L ++ S)).Subperm L := by
  have hsubperm := (finishAll_subperm (D := []) hL (by simp) hS).1
  rwa [List.append_nil] at hsubperm

/-- Data that is finished is there no more. -/
lemma notMem_finishAll {data : Data} {S l : List Data} (h : l.Nodup) (hmem : data ∈ S) :
    data ∉ finishAll S l := by
  induction S generalizing l with
  | nil => exact absurd hmem List.not_mem_nil
  | cons front S ih =>
      have hsublist := finishQueryData_sublist front l
      by_cases hS : data ∈ S
      · exact ih (hsublist.nodup h) hS
      · obtain rfl : data = front := (List.mem_cons.1 hmem).resolve_right hS
        exact fun hrest => notMem_finishQueryData h ((finishAll_sublist S _).subset hrest)

/-! ### The queries -/

/-- The data staged for one of the queries, in order. -/
def stagedData (queries : List (ℕ × ℕ)) (q : ℕ) : List Data :=
  (queries.filter fun child => child.1 = q).map fun child => .staged child.2

lemma mem_stagedData {queries : List (ℕ × ℕ)} {q : ℕ} {data : Data} :
    data ∈ stagedData queries q ↔ ∃ n, (q, n) ∈ queries ∧ data = .staged n := by
  constructor
  · intro h
    obtain ⟨child, hchild, rfl⟩ := List.mem_map.1 h
    obtain ⟨hmem, hq⟩ := List.mem_filter.1 hchild
    obtain rfl : child.1 = q := of_decide_eq_true hq
    exact ⟨child.2, hmem, rfl⟩
  · rintro ⟨n, hmem, rfl⟩
    exact List.mem_map.2 ⟨(q, n), List.mem_filter.2 ⟨hmem, decide_eq_true rfl⟩, rfl⟩

lemma stagedData_cons (child : ℕ × ℕ) (queries : List (ℕ × ℕ)) (q : ℕ) :
    stagedData (child :: queries) q =
      if child.1 = q then .staged child.2 :: stagedData queries q else stagedData queries q := by
  by_cases h : child.1 = q <;> simp [stagedData, h]

namespace State

variable {s : State}

/-- A change of what is running in each query. -/
def Reruns (s t : State) (f : ℕ → List Data → List Data) : Prop :=
  ∀ q, t.queries[q]? =
    s.queries[q]?.map fun x : QueryObject =>
      { x with runningQueryData := f q x.runningQueryData }

lemma Reruns.trans {t u : State} {f g : ℕ → List Data → List Data} (h : s.Reruns t f)
    (h' : t.Reruns u g) : s.Reruns u fun q l => g q (f q l) := by
  intro q
  rw [h' q, h q, Option.map_map]
  rfl

lemma Reruns.congr {t : State} {f g : ℕ → List Data → List Data} (h : s.Reruns t f)
    (hfg : ∀ q l, f q l = g q l) : s.Reruns t g := by
  obtain rfl : f = g := by
    funext q l
    exact hfg q l
  exact h

lemma reruns_modifyQuery (s : State) (q : ℕ) (f : List Data → List Data) :
    s.Reruns (s.modifyQuery q fun x => { x with runningQueryData := f x.runningQueryData })
      fun c l => if q = c then f l else l := by
  intro c
  rw [modifyQuery, List.getElem?_modify]
  by_cases hc : q = c
  · simp [hc]
  · cases s.queries[c]? <;> simp [hc]

lemma reruns_addStaged (queries : List (ℕ × ℕ)) :
    s.Reruns (s.addStaged queries) fun c l => l ++ stagedData queries c := by
  induction queries generalizing s with
  | nil =>
      intro c
      show s.queries[c]? = _
      cases s.queries[c]? <;> simp [stagedData]
  | cons child queries ih =>
      have hfirst := s.reruns_modifyQuery child.1 fun l => l ++ [.staged child.2]
      refine (hfirst.trans ih).congr fun c l => ?_
      rw [stagedData_cons]
      by_cases hc : child.1 = c <;> simp [hc]

lemma reruns_finishStaged (queries : List (ℕ × ℕ)) :
    s.Reruns (s.finishStaged queries) fun c l => finishAll (stagedData queries c) l := by
  induction queries generalizing s with
  | nil =>
      intro c
      show s.queries[c]? = _
      cases s.queries[c]? <;> rfl
  | cons child queries ih =>
      have hfirst := s.reruns_modifyQuery child.1 (Objects.finishQueryData (.staged child.2))
      refine (hfirst.trans ih).congr fun c l => ?_
      rw [stagedData_cons]
      by_cases hc : child.1 = c <;> simp [hc, finishAll]

lemma reruns_finishData (q : ℕ) (data : Data) (x : ExecutionData) :
    s.Reruns (s.finishData q data x) fun c l =>
      if q = c then Objects.finishQueryData data (finishAll (stagedData x.queries c) l)
      else finishAll (stagedData x.queries c) l := by
  have hstaged : s.Reruns { s.finishStaged x.queries with
      registry := s.registry.releaseAll x.references.fields } _ := reruns_finishStaged x.queries
  exact hstaged.trans (reruns_modifyQuery _ q (Objects.finishQueryData data))

end State

end GmsvPg.Objects
