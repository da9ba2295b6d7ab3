import Phrasebook.Proofs.Path

/-!
# Parents of a path

A path and its parent differ by the last component, as the parent is written so that the components
before it are read again. Main statement: the ancestors of a path are the path and its successive
parents, and they end at the root if the path is absolute and at the empty path otherwise.
-/

namespace Phrasebook

namespace Path

theorem prefix_dropIdleEnd (body : List String) : dropIdleEnd body <+: body := by
  rw [dropIdleEnd, ← List.reverse_suffix, List.reverse_reverse]
  exact List.dropWhile_suffix _

/-- A first segment that is not idle starts a relative path, so that it is not taken for a lead. -/
theorem parts_joinSlashes {first : String} {rest : List String} (hfirst : isIdle first = false)
    (noSlash : ∀ segment ∈ first :: rest, '/' ∉ segment.toList) :
    (Path.mk (joinSlashes (first :: rest))).isAbsolute = false ∧
      (Path.mk (joinSlashes (first :: rest))).parts = (.none, first :: rest) := by
  have segments := segments_joinSlashes (by simp) noSlash
  have relative : (Path.mk (joinSlashes (first :: rest))).isAbsolute = false := by
    by_contra absolute
    have leading := segments_of_isAbsolute (by simpa using absolute)
    rw [segments, List.cons_eq_cons] at leading
    rw [leading.1] at hfirst
    simp [isIdle, ofSegment?_empty] at hfirst
  have notHere : first ≠ "." := by
    rintro rfl
    simp [isIdle, Component.ofSegment?] at hfirst
  exact ⟨relative, by simp [parts, relative, segments, notHere]⟩

/-- What is written from a lead and a body has their components. -/
theorem components_ofParts {lead : Lead} {body : List String}
    (noSlash : ∀ segment ∈ body, '/' ∉ segment.toList)
    (head : lead = .none → ∀ first ∈ body.head?, isIdle first = false) :
    (ofParts lead body).isAbsolute = (lead == .root) ∧
      (ofParts lead body).components =
        lead.components ++ body.filterMap Component.ofSegment? := by
  cases lead with
  | root => exact ⟨isAbsolute_slash _, components_slash_join noSlash⟩
  | here =>
    cases body with
    | nil => decide
    | cons first rest =>
      have text : "./" ++ joinSlashes (first :: rest) = "." ++ "/" ++ joinSlashes (first :: rest) :=
        rfl
      have relative : (Path.mk ("./" ++ joinSlashes (first :: rest))).isAbsolute = false := by
        simp [isAbsolute]
      have segments : (Path.mk ("./" ++ joinSlashes (first :: rest))).segments =
          "." :: first :: rest := by
        rw [text, segments_append_slash, segments_joinSlashes (by simp) noSlash]
        rfl
      exact ⟨relative, by simp [ofParts, components, parts, relative, segments]⟩
  | none =>
    cases body with
    | nil => decide
    | cons first rest =>
      obtain ⟨relative, parts⟩ := parts_joinSlashes (head rfl first rfl) noSlash
      exact ⟨relative, by simp [ofParts, components, parts]⟩

namespace Stem

variable {path : Path} {lead : Lead} {body : List String} (stem : Stem path lead body)
include stem

theorem isAbsolute : path.isAbsolute = (lead == .root) := by
  obtain ⟨whole, parts⟩ : ∃ whole, path.parts = (lead, whole) := by
    rcases stem.parts with parts | parts <;> exact ⟨_, parts⟩
  unfold Path.parts at parts
  split at parts <;> obtain ⟨rfl, -⟩ := Prod.mk.injEq .. |>.mp parts <;> simp_all

theorem noSlash : ∀ segment ∈ body, '/' ∉ segment.toList := by
  obtain ⟨whole, parts, inside⟩ : ∃ whole, path.parts = (lead, whole) ∧ body ⊆ whole := by
    rcases stem.parts with parts | parts
    · exact ⟨_, parts, List.Subset.refl _⟩
    · exact ⟨_, parts, List.subset_append_left _ _⟩
  intro segment hmem
  have inWhole := inside hmem
  have inPath : segment ∈ path.segments := by
    unfold Path.parts at parts
    split at parts <;> obtain ⟨-, rfl⟩ := Prod.mk.injEq .. |>.mp parts
    · exact List.mem_of_mem_tail inWhole
    · next same =>
      rw [same]
      exact List.mem_cons_of_mem _ inWhole
    · exact inWhole
  exact slash_not_mem_segments inPath

/-- The parent is written from the body before its last component. -/
theorem parent?_snoc {init : List String} {last : String}
    (hbody : dropIdleEnd body = init ++ [last]) :
    path.parent? = some (ofParts lead (dropIdleEnd init)) := by
  obtain ⟨first, rest, hcons⟩ := List.exists_cons_of_ne_nil (l := init ++ [last]) (by simp)
  have before : (first :: rest).dropLast = init := by rw [← hcons, List.dropLast_concat]
  rcases stem.parts with parts | parts <;>
    simp only [parent?, parts, dropIdleEnd_append_empty, hbody, hcons, before]

/-- A path of a lead alone. -/
theorem parent?_lead (hbody : dropIdleEnd body = []) :
    path.parent? = if lead = .here then some ⟨""⟩ else none := by
  rcases stem.parts with parts | parts <;>
    cases lead <;> simp [parent?, parts, dropIdleEnd_append_empty, hbody]

end Stem

/-- A relative path without components is empty. -/
theorem text_eq_empty {path : Path} (relative : path.isAbsolute = false)
    (h : path.components = []) : path.text = "" := by
  by_contra nonempty
  obtain ⟨first, rest, segments⟩ := List.exists_cons_of_ne_nil path.segments_ne_nil
  have notEmpty := head_segments relative segments nonempty
  by_cases here : first = "."
  · simp [components, parts, relative, segments, here, Lead.components] at h
  · obtain ⟨component, hcomponent⟩ : ∃ component, Component.ofSegment? first = some component := by
      simp only [Component.ofSegment?, notEmpty, here, or_self, if_false]
      split <;> exact ⟨_, rfl⟩
    simp [components, parts, relative, segments, here, hcomponent] at h

/-- The parent of a path has its components but for the last one. -/
theorem components_of_parent? {path parent : Path} (h : path.parent? = some parent) :
    parent.isAbsolute = path.isAbsolute ∧
      ∃ component, path.components = parent.components ++ [component] := by
  obtain ⟨lead, body, stem⟩ := exists_stem path
  have components := stem.components
  rw [← filterMap_dropIdleEnd] at components
  rw [stem.isAbsolute]
  cases hbody : dropIdleEnd body using List.reverseRecOn with
  | nil =>
    rw [stem.parent?_lead hbody] at h
    rw [hbody] at components
    split at h
    · next here =>
      obtain rfl := Option.some.inj h
      subst here
      exact ⟨rfl, .here, components⟩
    · simp at h
  | append_singleton init last =>
    have written := Option.some.inj ((stem.parent?_snoc hbody).symm.trans h)
    have kept : dropIdleEnd init <+: body :=
      ((prefix_dropIdleEnd init).trans (List.prefix_append init [last])).trans
        (hbody ▸ prefix_dropIdleEnd body)
    have noSlash : ∀ segment ∈ dropIdleEnd init, '/' ∉ segment.toList :=
      fun segment hmem => stem.noSlash segment (kept.subset hmem)
    have head : lead = .none → ∀ first ∈ (dropIdleEnd init).head?, isIdle first = false := by
      intro noLead first hfirst
      obtain ⟨rest, hinit⟩ := List.head?_eq_some_iff.mp hfirst
      rw [hinit] at kept
      rcases stem.head noLead with rfl | ⟨first', rest', rfl, notIdle⟩
      · simp at kept
      · rw [(List.cons_prefix_cons.mp kept).1]
        exact notIdle
    obtain ⟨absolute, components'⟩ := components_ofParts noSlash head
    rw [written] at absolute components'
    obtain ⟨component, hcomponent⟩ : ∃ component, Component.ofSegment? last = some component :=
      Option.isSome_iff_exists.mp (by simpa [isIdle] using isIdle_last_of_dropIdleEnd hbody)
    refine ⟨absolute, component, ?_⟩
    rw [components, components', hbody, filterMap_dropIdleEnd]
    simp [hcomponent]

/-- Only the root and the empty path have no parent. -/
theorem top_of_parent?_eq_none {path : Path} (h : path.parent? = none) :
    if path.isAbsolute then path.components = [.root] else path.text = "" := by
  obtain ⟨lead, body, stem⟩ := exists_stem path
  have components := stem.components
  rw [← filterMap_dropIdleEnd] at components
  have absolute := stem.isAbsolute
  cases hbody : dropIdleEnd body using List.reverseRecOn with
  | nil =>
    rw [stem.parent?_lead hbody] at h
    rw [hbody] at components
    cases lead with
    | root => rw [if_pos (by simpa using absolute), components]; rfl
    | none => rw [if_neg (by simp [absolute])]; exact text_eq_empty absolute components
    | here => simp at h
  | append_singleton init last => simp [stem.parent?_snoc hbody] at h

/-- The directories are the path and its successive parents, up to one that has no parent. -/
structure Parents (start : Path) (directories : List Path) : Prop where
  first : directories[0]? = some start
  next : ∀ k, directories[k + 1]? = directories[k]?.bind parent?

theorem parents_ancestorsUpTo {n : Nat} {path : Path} (enough : path.components.length ≤ n) :
    Parents path (ancestorsUpTo n path) := by
  induction n generalizing path with
  | zero =>
    -- A path without components has no parent.
    have noParent : path.parent? = none := by
      by_contra hasParent
      obtain ⟨parent, hparent⟩ := Option.ne_none_iff_exists'.mp hasParent
      obtain ⟨-, component, components⟩ := components_of_parent? hparent
      simp [components] at enough
    refine ⟨rfl, fun k => ?_⟩
    cases k <;> simp [ancestorsUpTo, noParent]
  | succ n ih =>
    rw [ancestorsUpTo]
    cases hparent : path.parent? with
    | none =>
      refine ⟨rfl, fun k => ?_⟩
      cases k <;> simp [hparent]
    | some parent =>
      obtain ⟨-, component, components⟩ := components_of_parent? hparent
      rw [components, List.length_append, List.length_singleton] at enough
      have later := ih (Nat.le_of_succ_le_succ enough)
      refine ⟨rfl, fun k => ?_⟩
      cases k with
      | zero => simpa [hparent] using later.first
      | succ k => simpa using later.next k

/-- The ancestors of a path are all of its parents: each has one component less than the one before,
    so that there are no more of them than components. -/
theorem parents_ancestors (path : Path) : Parents path path.ancestors :=
  parents_ancestorsUpTo (Nat.le_refl _)

/-- The parents of a path end at the root or at the empty path. -/
theorem Parents.top {start : Path} {directories : List Path} (h : Parents start directories) :
    ∃ top, directories.getLast? = some top ∧
      if start.isAbsolute then top.components = [.root] else top.text = "" := by
  have kept : ∀ (k : Nat) (directory : Path), directories[k]? = some directory →
      directory.isAbsolute = start.isAbsolute := by
    intro k
    induction k with
    | zero =>
      intro directory found
      rw [Option.some.inj (found.symm.trans h.first)]
    | succ k ih =>
      intro directory found
      rw [h.next k] at found
      obtain ⟨nearer, hnearer, hparent⟩ := Option.bind_eq_some_iff.mp found
      rw [(components_of_parent? hparent).1, ih nearer hnearer]
  have nonempty : directories ≠ [] := by
    rintro rfl
    simpa using h.first
  obtain ⟨init, top, rfl⟩ := (List.eq_nil_or_concat' directories).resolve_left nonempty
  have last : (init ++ [top])[init.length]? = some top := by simp
  have noParent : top.parent? = none := by
    have := h.next init.length
    rw [last] at this
    simpa using this.symm
  refine ⟨top, by simp, ?_⟩
  rw [← kept _ _ last]
  exact top_of_parent?_eq_none noParent

end Path

end Phrasebook
