import PodSizing.Pod.Interchange
import PodSizing.Proofs.Json.Merge
import PodSizing.Proofs.Status.RoundTrip

/-!
# Reading pods from documents

Of an object that repeats no name, reading depends on nothing but what it holds under the names that are
looked for. So a change of some members changes just what is read from those.
-/
namespace PodSizing
open Shape (table?)

theorem objectMembers?_iff {j : Json} {l : Members} : objectMembers? j = some l ↔ j = .record l := by
  constructor
  · intro h
    cases j with
    | obj members =>
      refine congrArg Json.obj ?_
      simp only [objectMembers?] at h
      induction members generalizing l with
      | nil =>
        cases h
        rfl
      | cons m rest ih =>
        obtain ⟨name, value⟩ := m
        cases name with
        | none => simp [Json.namedMembers?] at h
        | some name =>
          obtain ⟨named, hnamed, rfl⟩ := Option.map_eq_some_iff.1 h
          simp [ih hnamed]
    | _ => simp [objectMembers?] at h
  · rintro rfl
    exact Json.namedMembers?_record l

theorem distinct_record {l : Members} (h : (Json.record l).distinct = true) :
    (l.map (·.1)).Nodup ∧ ∀ m ∈ l, m.2.distinct = true := by
  simp only [Json.record, Json.distinct, Bool.and_eq_true, decide_eq_true_eq] at h
  refine ⟨(Json.nodup_record l).1 h.1, fun m hm => ?_⟩
  exact Json.distinct_of_mem_members h.2 (List.mem_map.2 ⟨m, hm, rfl⟩)

theorem mem_of_lookup {l : Members} {n : String} {j : Json} (h : l.lookup n = some j) :
    (n, j) ∈ l := by
  obtain ⟨before, after, rfl, -⟩ := List.lookup_eq_some_iff.1 h
  simp

theorem distinct_lookup {l : Members} (h : (Json.record l).distinct = true) {n : String} (j : Json)
    (hj : l.lookup n = some j) : j.distinct = true :=
  (distinct_record h).2 (n, j) (mem_of_lookup hj)

namespace Shape
variable {α : Type} {l l' : Members}

def member? (plain : Json → Option α) : Option Json → Option (Option α)
  | none | some .null => some none
  | some value => (plain value).map some

theorem filter_eq_lookup (h : (l.map (·.1)).Nodup) (name : String) :
    l.filter (·.1 = name) = ((l.lookup name).map (name, ·)).toList := by
  induction l with
  | nil => rfl
  | cons m rest ih =>
    rw [List.map_cons, List.nodup_cons] at h
    rw [Keyed.lookup_cons_ite]
    by_cases hm : name = m.1
    · subst hm
      have hrest : rest.filter (·.1 = m.1) = [] := by
        rw [List.filter_eq_nil_iff]
        intro d hd hdm
        exact h.1 (List.mem_map.2 ⟨d, hd, by simpa using hdm⟩)
      rw [List.filter_cons_of_pos (by simp), hrest, if_pos rfl]
      rfl
    · rw [List.filter_cons_of_neg (by simpa using Ne.symm hm), if_neg hm]
      exact ih h.2

theorem lastMember?_eq (h : (l.map (·.1)).Nodup) (plain : Json → Option α) (name : String) :
    lastMember? plain name l = member? plain (l.lookup name) := by
  rw [lastMember?, filter_eq_lookup h]
  cases l.lookup name with
  | none => rfl
  | some value => cases value <;> simp [member?, Function.comp_def]

theorem exists_of_mem_mapM {β γ : Type} {f : β → Option γ} {l : List β} {vs : List γ}
    (h : l.mapM f = some vs) {v : γ} (hv : v ∈ vs) : ∃ b ∈ l, f b = some v := by
  induction l generalizing vs with
  | nil =>
    cases h
    cases hv
  | cons b rest ih =>
    simp only [List.mapM_cons, bind, Option.bind_eq_some_iff, pure, Option.some.injEq] at h
    obtain ⟨first, hfirst, later, hlater, rfl⟩ := h
    rcases List.mem_cons.1 hv with rfl | hv
    · exact ⟨b, List.mem_cons_self, hfirst⟩
    · obtain ⟨c, hc, hcv⟩ := ih hlater hv
      exact ⟨c, List.mem_cons_of_mem _ hc, hcv⟩

theorem exists_of_lastMember? {plain : Json → Option α} {name : String} {a : α}
    (h : lastMember? plain name l = some (some a)) : ∃ j, plain j = some a := by
  obtain ⟨values, hvalues, hlast⟩ := Option.map_eq_some_iff.1 h
  have hmem : some a ∈ values := List.mem_of_getLast? (Option.join_eq_some_iff.1 hlast)
  obtain ⟨m, -, hm⟩ := exists_of_mem_mapM hvalues hmem
  split at hm
  · cases hm
  · obtain ⟨b, hb, hba⟩ := Option.map_eq_some_iff.1 hm
    cases hba
    exact ⟨_, hb⟩

theorem plainFields?_congr (h : (l.map (·.1)).Nodup) (h' : (l'.map (·.1)).Nodup)
    (fields : Schema.Fields) (hsame : ∀ f ∈ fields, l'.lookup f.1 = l.lookup f.1) :
    plainFields? fields l' = plainFields? fields l := by
  induction fields with
  | nil => simp only [plainFields?]
  | cons f rest ih =>
    obtain ⟨name, isRequired, shape⟩ := f
    rw [List.forall_mem_cons] at hsame
    simp only [plainFields?, lastMember?_eq h, lastMember?_eq h', hsame.1, ih hsame.2]

theorem readString?_eq_some {j : Json} {s : String} : Json.readString? j = some s ↔ j = .text s := by
  cases j <;> simp [Json.readString?, Json.text]

theorem mapM_texts {l : Members} {entries : List (String × String)} :
    (l.mapM fun m => (Json.readString? m.2).map fun value => (m.1, value)) = some entries ↔
      l = entries.map fun e => (e.1, .text e.2) := by
  induction l generalizing entries with
  | nil => cases entries <;> simp
  | cons m rest ih =>
    obtain ⟨name, value⟩ := m
    simp only [List.mapM_cons, bind, Option.bind_eq_some_iff, Option.map_eq_some_iff, ih, pure,
      Option.some.injEq]
    constructor
    · rintro ⟨-, ⟨s, hs, rfl⟩, later, rfl, rfl⟩
      rw [List.map_cons, readString?_eq_some.1 hs]
    · cases entries with
      | nil => simp
      | cons e later =>
        intro heq
        cases heq
        exact ⟨_, ⟨e.2, rfl, rfl⟩, later, rfl, rfl⟩

theorem exists_texts {l : Members} (h : ∀ m ∈ l, ∃ s, m.2 = .text s) :
    ∃ entries : List (String × String), l = entries.map fun e => (e.1, .text e.2) := by
  induction l with
  | nil => exact ⟨[], rfl⟩
  | cons m rest ih =>
    rw [List.forall_mem_cons] at h
    obtain ⟨s, hs⟩ := h.1
    obtain ⟨entries, rfl⟩ := ih h.2
    exact ⟨(m.1, s) :: entries, by rw [List.map_cons, ← hs]⟩

theorem text_injective : Function.Injective Json.text := fun a b h => by
  simpa [Json.text] using h

theorem lookup_texts (entries : List (String × String)) (k : String) :
    (entries.map fun e => (e.1, Json.text e.2)).lookup k = (entries.lookup k).map .text := by
  induction entries with
  | nil => rfl
  | cons e rest ih =>
    simp only [List.map_cons, Keyed.lookup_cons_ite, ih]
    split <;> rfl

/-- An object is read as a table of texts just if it holds those texts. -/
theorem table?_record_iff (h : (l.map (·.1)).Nodup) (t : Keyed String) :
    table? Json.readString? (.record l) = some t ↔
      ∀ k, l.lookup k = (t.get? k).map Json.text := by
  have hread : table? Json.readString? (.record l) = some t ↔
      ∃ entries, l = entries.map (fun e => (e.1, Json.text e.2)) ∧ Keyed.ofList entries = t := by
    simp only [Json.record, table?, Json.namedMembers?_record, bind, Option.bind_some,
      Option.bind_eq_some_iff, mapM_texts, Option.some.injEq]
  rw [hread]
  constructor
  · rintro ⟨entries, rfl, rfl⟩ k
    have hkeys : (entries.map (·.1)).Nodup := by simpa [Function.comp_def] using h
    rw [lookup_texts, Keyed.get?_ofList hkeys]
  · intro hlookup
    have htexts : ∀ m ∈ l, ∃ s, m.2 = .text s := by
      intro m hm
      have hm := Keyed.lookup_of_mem h hm
      rw [hlookup] at hm
      obtain ⟨s, -, hs⟩ := Option.map_eq_some_iff.1 hm
      exact ⟨s, hs.symm⟩
    obtain ⟨entries, rfl⟩ := exists_texts htexts
    refine ⟨entries, rfl, Keyed.ext_get? fun k => ?_⟩
    have hkeys : (entries.map (·.1)).Nodup := by simpa [Function.comp_def] using h
    rw [Keyed.get?_ofList hkeys]
    exact Option.map_injective text_injective ((lookup_texts entries k).symm.trans (hlookup k))

end Shape

theorem objectMembers?_record (l : Members) : objectMembers? (.record l) = some l :=
  objectMembers?_iff.2 rfl

section Changed
variable {l l' : Members}

theorem readOther?_congr (h : (l.map (·.1)).Nodup) (h' : (l'.map (·.1)).Nodup)
    (fields : Schema.Fields) (hsame : ∀ f ∈ fields, l'.lookup f.1 = l.lookup f.1) :
    readOther? fields l' = readOther? fields l :=
  congrArg (Option.map Json.record) (Shape.plainFields?_congr h h' fields hsame)

theorem Metadata.ofJson?_changed {m : Metadata} {version : Option String}
    {labels annotations : Option (Keyed String)} (h : (l.map (·.1)).Nodup)
    (h' : (l'.map (·.1)).Nodup) (hread : Metadata.ofJson? (.record l) = some m)
    (hsame : ∀ n, n ≠ "resourceVersion" → n ≠ "labels" → n ≠ "annotations" →
      l'.lookup n = l.lookup n)
    (hversion : Shape.member? Json.readString? (l'.lookup "resourceVersion") = some version)
    (hlabels : Shape.member? (table? Json.readString?) (l'.lookup "labels") = some labels)
    (hannotations :
      Shape.member? (table? Json.readString?) (l'.lookup "annotations") = some annotations) :
    Metadata.ofJson? (.record l') =
      some { m with resourceVersion := version, labels, annotations } := by
  have hnames : ∀ f ∈ Schema.metadata,
      f.1 ≠ "resourceVersion" ∧ f.1 ≠ "labels" ∧ f.1 ≠ "annotations" := by decide
  have hother := readOther?_congr h h' Schema.metadata fun f hf =>
    hsame f.1 (hnames f hf).1 (hnames f hf).2.1 (hnames f hf).2.2
  simp only [ofJson?, objectMembers?_record, bind, Option.bind_some, Shape.lastMember?_eq h,
    Option.bind_eq_some_iff, Option.some.injEq] at hread
  obtain ⟨_, hnamespace, _, hname, _, hgenerate, _, -, _, -, _, -, _, hdeletion, _, hmanaged, _, hrest,
    rfl⟩ := hread
  simp [ofJson?, objectMembers?_record, bind, Shape.lastMember?_eq h', hsame, hnamespace, hname,
    hgenerate, hversion, hlabels, hannotations, hdeletion, hmanaged, hother, hrest]

theorem Container.ofJson?_changed {c : Container} {resources : Option Resources}
    (h : (l.map (·.1)).Nodup) (h' : (l'.map (·.1)).Nodup)
    (hread : Container.ofJson? (.record l) = some c)
    (hsame : ∀ n, n ≠ "name" → n ≠ "resources" → l'.lookup n = l.lookup n)
    (hname : Shape.member? Json.readString? (l'.lookup "name") = some (some c.name))
    (hresources : Shape.member? Resources.ofJson? (l'.lookup "resources") = some resources) :
    Container.ofJson? (.record l') = some { c with resources } := by
  have hnames : ∀ f ∈ Schema.container, f.1 ≠ "name" ∧ f.1 ≠ "resources" := by decide
  have hother := readOther?_congr h h' Schema.container fun f hf =>
    hsame f.1 (hnames f hf).1 (hnames f hf).2
  simp only [ofJson?, objectMembers?_record, bind, Option.bind_some, readRequiredText?,
    Shape.lastMember?_eq h, Option.bind_eq_some_iff, Option.some.injEq] at hread
  obtain ⟨_, -, _, hstartup, _, hreadiness, _, -, _, hpolicy, _, hrest, rfl⟩ := hread
  simp [ofJson?, objectMembers?_record, bind, readRequiredText?, Shape.lastMember?_eq h', hsame,
    hname, hstartup, hreadiness, hresources, hpolicy, hother, hrest]

theorem Spec.ofJson?_changed {s : Spec} {containers : List Container} (h : (l.map (·.1)).Nodup)
    (h' : (l'.map (·.1)).Nodup) (hread : Spec.ofJson? (.record l) = some s)
    (hsame : ∀ n, n ≠ "containers" → l'.lookup n = l.lookup n)
    (hcontainers : Shape.member? (readList? Container.ofJson?) (l'.lookup "containers") =
      some (some containers)) :
    Spec.ofJson? (.record l') = some { s with containers } := by
  have hnames : ∀ f ∈ Schema.spec, f.1 ≠ "containers" := by decide
  have hother := readOther?_congr h h' Schema.spec fun f hf => hsame f.1 (hnames f hf)
  simp only [ofJson?, objectMembers?_record, bind, Option.bind_some, Shape.lastMember?_eq h,
    Option.bind_eq_some_iff, Option.some.injEq] at hread
  obtain ⟨_, -, _, hrest, rfl⟩ := hread
  simp [ofJson?, objectMembers?_record, bind, Shape.lastMember?_eq h', hcontainers, hother, hrest]

theorem saysOnly_congr (h : (l.map (·.1)).Nodup) (h' : (l'.map (·.1)).Nodup) {name : String}
    (hsame : l'.lookup name = l.lookup name) (text : String) :
    saysOnly name text l' = saysOnly name text l := by
  have hfilter (l : Members) : saysOnly name text l =
      (l.filter (·.1 = name)).all fun m => Json.readString? m.2 == some text := by
    rw [List.all_filter]
    refine congrArg l.all (funext fun m => ?_)
    by_cases hm : m.1 = name <;> simp [hm]
  rw [hfilter, hfilter, Shape.filter_eq_lookup h, Shape.filter_eq_lookup h', hsame]

/-- A pod with another specification and other metadata. -/
theorem Pod.ofJson?_changed {p : Pod} {metadata : Option Metadata} {spec : Option Spec}
    (h : (l.map (·.1)).Nodup) (h' : (l'.map (·.1)).Nodup)
    (hread : Pod.ofJson? (.record l) = some p)
    (hsame : ∀ n, n ≠ "metadata" → n ≠ "spec" → l'.lookup n = l.lookup n)
    (hmetadata : Shape.member? Metadata.ofJson? (l'.lookup "metadata") = some metadata)
    (hspec : Shape.member? Spec.ofJson? (l'.lookup "spec") = some spec) :
    Pod.ofJson? (.record l') = some { p with metadata := metadata.getD {}, spec } := by
  have hkind := saysOnly_congr h h' (hsame "kind" (by decide) (by decide)) "Pod"
  have hversion := saysOnly_congr h h' (hsame "apiVersion" (by decide) (by decide)) "v1"
  simp only [ofJson?, objectMembers?_record, bind, Option.bind_some, Shape.lastMember?_eq h] at hread
  split at hread
  · next hsays =>
    simp only [Option.bind_eq_some_iff, Option.some.injEq] at hread
    obtain ⟨_, -, _, -, _, hstatus, rfl⟩ := hread
    rw [Bool.and_eq_true] at hsays
    simp [ofJson?, objectMembers?_record, bind, Shape.lastMember?_eq h', hkind, hversion, hsays,
      hsame, hmetadata, hspec, hstatus]
  · cases hread

end Changed

end PodSizing
