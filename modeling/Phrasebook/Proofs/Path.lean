import Mathlib.Data.List.Infix
import Phrasebook.Path

/-!
# Paths of entries

A walk names an entry by the path of its root and the names that lead to it from there. Main
statements: such a path has the components of the root and then the names, its part below the root
is the names joined by slashes, and seen from another root that part leads along the same names.
-/

namespace Phrasebook

namespace Path

/-- A text that can be the name of a directory entry. -/
structure IsName (name : String) : Prop where
  notEmpty : name ≠ ""
  notHere : name ≠ "."
  notUp : name ≠ ".."
  noSlash : '/' ∉ name.toList

instance (name : String) : Decidable (IsName name) :=
  decidable_of_iff (name ≠ "" ∧ name ≠ "." ∧ name ≠ ".." ∧ '/' ∉ name.toList)
    ⟨fun ⟨notEmpty, notHere, notUp, noSlash⟩ => ⟨notEmpty, notHere, notUp, noSlash⟩,
      fun h => ⟨h.notEmpty, h.notHere, h.notUp, h.noSlash⟩⟩

/-- Each text of a list can be the name of a directory entry. -/
def AreNames (names : List String) : Prop :=
  ∀ name ∈ names, IsName name

instance (names : List String) : Decidable (AreNames names) :=
  inferInstanceAs (Decidable (∀ name ∈ names, IsName name))

@[simp] theorem areNames_nil : AreNames [] := by
  simp [AreNames]

@[simp] theorem areNames_cons {name : String} {names : List String} :
    AreNames (name :: names) ↔ IsName name ∧ AreNames names := by
  simp [AreNames]

@[simp] theorem areNames_append {names more : List String} :
    AreNames (names ++ more) ↔ AreNames names ∧ AreNames more := by
  simp [AreNames, or_imp, forall_and]

@[simp] theorem areNames_reverse {names : List String} :
    AreNames names.reverse ↔ AreNames names := by
  simp [AreNames]

theorem IsName.ofSegment? {name : String} (h : IsName name) :
    Component.ofSegment? name = some (.name name) := by
  simp [Component.ofSegment?, h.notEmpty, h.notHere, h.notUp]

theorem IsName.isIdle {name : String} (h : IsName name) : isIdle name = false := by
  simp [Path.isIdle, h.ofSegment?]

theorem AreNames.filterMap {names : List String} (h : AreNames names) :
    names.filterMap Component.ofSegment? = names.map .name := by
  induction names with
  | nil => rfl
  | cons name names ih =>
    rw [areNames_cons] at h
    simp [h.1.ofSegment?, ih h.2]

theorem ofSegment?_empty : Component.ofSegment? "" = none := rfl

/-! ## Splitting at slashes -/

theorem splitSlashes_ne_nil (cs : List Char) : splitSlashes cs ≠ [] := by
  cases cs with
  | nil => simp [splitSlashes]
  | cons c cs =>
    rw [splitSlashes]
    split
    · simp
    · split <;> simp

theorem splitSlashes_append_slash (cs ds : List Char) :
    splitSlashes (cs ++ '/' :: ds) = splitSlashes cs ++ splitSlashes ds := by
  induction cs with
  | nil => simp [splitSlashes]
  | cons c cs ih =>
    rw [List.cons_append, splitSlashes, splitSlashes, ih]
    split
    · simp
    · obtain ⟨segment, rest, hsplit⟩ := List.exists_cons_of_ne_nil (splitSlashes_ne_nil cs)
      simp [hsplit]

theorem splitSlashes_of_not_mem {cs : List Char} (h : '/' ∉ cs) : splitSlashes cs = [cs] := by
  induction cs with
  | nil => rfl
  | cons c cs ih =>
    simp only [List.mem_cons, not_or] at h
    simp [splitSlashes, Ne.symm h.1, ih h.2]

theorem slash_not_mem_splitSlashes {segment cs : List Char} (h : segment ∈ splitSlashes cs) :
    '/' ∉ segment := by
  induction cs generalizing segment with
  | nil =>
    obtain rfl : segment = [] := by simpa [splitSlashes] using h
    simp
  | cons c cs ih =>
    rw [splitSlashes] at h
    split at h
    · rcases List.mem_cons.mp h with rfl | later
      · simp
      · exact ih later
    · next notSlash =>
      obtain ⟨first, rest, hsplit⟩ := List.exists_cons_of_ne_nil (splitSlashes_ne_nil cs)
      simp only [hsplit, List.mem_cons] at h ih
      rcases h with rfl | later
      · have := ih (.inl rfl)
        simp [Ne.symm notSlash, this]
      · exact ih (.inr later)

theorem slash_not_mem_segments {segment : String} {path : Path} (h : segment ∈ path.segments) :
    '/' ∉ segment.toList := by
  obtain ⟨cs, hmem, rfl⟩ := List.mem_map.mp h
  simpa using slash_not_mem_splitSlashes hmem

@[simp] theorem segments_empty : (Path.mk "").segments = [""] := rfl

theorem segments_append_slash (text more : String) :
    (Path.mk (text ++ "/" ++ more)).segments =
      (Path.mk text).segments ++ (Path.mk more).segments := by
  simp [segments, splitSlashes_append_slash]

theorem segments_of_isName {name : String} (h : IsName name) : (Path.mk name).segments = [name] := by
  simp [segments, splitSlashes_of_not_mem h.noSlash]

theorem segments_ne_nil (path : Path) : path.segments ≠ [] := by
  simp [segments, splitSlashes_ne_nil]

theorem segments_joinSlashes {body : List String} (hne : body ≠ [])
    (h : ∀ segment ∈ body, '/' ∉ segment.toList) : (Path.mk (joinSlashes body)).segments = body := by
  fun_induction joinSlashes body with
  | case1 => contradiction
  | case2 segment =>
    have := splitSlashes_of_not_mem (h segment List.mem_cons_self)
    simp [segments, this]
  | case3 segment rest hrest ih =>
    have first := splitSlashes_of_not_mem (h segment List.mem_cons_self)
    have later := ih hrest fun other hmem => h other (List.mem_cons_of_mem _ hmem)
    rw [segments_append_slash, later]
    simp [segments, first]

/-! ## Children -/

theorem isAbsolute_of_isName {name : String} (h : IsName name) :
    (Path.mk name).isAbsolute = false := by
  have := h.noSlash
  cases hname : name.toList with
  | nil => simp [isAbsolute, hname]
  | cons c cs =>
    simp only [hname, List.mem_cons, not_or] at this
    simp [isAbsolute, hname, Ne.symm this.1]

/-- What the text of a path is continued by for its entries: a slash, unless there is one. -/
def glue (path : Path) : String :=
  if path.isEmpty || path.endsInSlash then "" else "/"

theorem join_eq {path other : Path} (h : other.isAbsolute = false) :
    path.join other = ⟨path.text ++ path.glue ++ other.text⟩ := by
  unfold join glue
  simp only [h, Bool.false_eq_true, if_false]
  split <;> simp

theorem child_eq {path : Path} {name : String} (h : IsName name) :
    path.child name = ⟨path.text ++ path.glue ++ name⟩ :=
  join_eq (isAbsolute_of_isName h)

theorem isEmpty_iff {path : Path} : path.isEmpty = true ↔ path.text = "" := by
  simp [isEmpty]

theorem isEmpty_child (path : Path) {name : String} (h : IsName name) :
    (path.child name).isEmpty = false := by
  rw [child_eq h]
  simp [isEmpty, h.notEmpty]

theorem exists_of_endsInSlash {path : Path} (h : path.endsInSlash = true) :
    ∃ text, path.text = text ++ "/" := by
  simp only [endsInSlash, beq_iff_eq] at h
  obtain ⟨cs, hcs⟩ := List.getLast?_eq_some_iff.mp h
  refine ⟨String.ofList cs, ?_⟩
  rw [String.ext_iff, hcs]
  simp

/-- A child is named behind what the path has before its last slash, if that is at its end. -/
theorem exists_segments_child (path : Path) :
    ∃ stem, (∀ name, IsName name → (path.child name).segments = stem ++ [name]) ∧
      (path.segments = stem ∨ path.segments = stem ++ [""]) ∧ (stem = [] ↔ path.text = "") := by
  by_cases empty : path.text = ""
  · refine ⟨[], ?_, .inr ?_, by simp [empty]⟩
    · intro name hname
      rw [child_eq hname, glue, if_pos (by simp [isEmpty, empty]), empty]
      simpa using segments_of_isName hname
    · obtain rfl : path = ⟨""⟩ := congrArg Path.mk empty
      rfl
  · by_cases slash : path.endsInSlash = true
    · obtain ⟨text, htext⟩ := exists_of_endsInSlash slash
      refine ⟨(Path.mk text).segments, ?_, .inr ?_, by simp [empty, segments_ne_nil]⟩
      · intro name hname
        rw [child_eq hname, glue, if_pos (by simp [slash]), htext, String.append_empty,
          segments_append_slash, segments_of_isName hname]
      · obtain rfl : path = ⟨text ++ "/" ++ ""⟩ := by
          rw [String.append_empty, ← htext]
        rw [segments_append_slash, segments_empty]
    · refine ⟨path.segments, ?_, .inl rfl, by simp [empty, segments_ne_nil]⟩
      intro name hname
      rw [child_eq hname, glue, if_neg (by simp [isEmpty, empty, slash]), segments_append_slash,
        segments_of_isName hname]

@[simp] theorem isAbsolute_child {path : Path} {name : String} (h : IsName name) :
    (path.child name).isAbsolute = path.isAbsolute := by
  rw [child_eq h]
  by_cases empty : path.text = ""
  · have := isAbsolute_of_isName h
    simp [glue, isEmpty, empty, isAbsolute] at this ⊢
    exact this
  · have : path.text.toList ≠ [] := by simpa using empty
    simp [isAbsolute, List.head?_append_of_ne_nil _ this]

theorem endsInSlash_child {path : Path} {name : String} (h : IsName name) :
    (path.child name).endsInSlash = false := by
  have nonempty : name.toList ≠ [] := by simpa using h.notEmpty
  rw [child_eq h, endsInSlash]
  simp only [String.toList_append, List.getLast?_append_of_ne_nil _ nonempty]
  rw [List.getLast?_eq_some_getLast nonempty]
  have := List.getLast_mem nonempty
  simp only [Option.some_beq_some, beq_eq_false_iff_ne]
  intro same
  exact h.noSlash (same ▸ this)

/-! ## Leads and bodies -/

/-- The path starts with the lead and goes on with the body, to which the name of an entry is
    added. -/
structure Stem (path : Path) (lead : Lead) (body : List String) : Prop where
  parts : path.parts = (lead, body) ∨ path.parts = (lead, body ++ [""])
  child : ∀ name, IsName name → (path.child name).parts = (lead, body ++ [name])
  head : lead = .none → body = [] ∨ ∃ first rest, body = first :: rest ∧ isIdle first = false

/-- A path without a lead that is not empty starts with a component. -/
theorem head_segments {path : Path} {first : String} {rest : List String}
    (hrelative : path.isAbsolute = false) (hsegments : path.segments = first :: rest)
    (hne : path.text ≠ "") : first ≠ "" := by
  have : path.text.toList ≠ [] := by simpa using hne
  obtain ⟨c, cs, htext⟩ := List.exists_cons_of_ne_nil this
  have notSlash : c ≠ '/' := by
    rintro rfl
    simp [isAbsolute, htext] at hrelative
  obtain ⟨segment, more, hsplit⟩ := List.exists_cons_of_ne_nil (splitSlashes_ne_nil cs)
  rw [segments, htext, splitSlashes, if_neg notSlash, hsplit] at hsegments
  simp only [List.map_cons, List.cons.injEq] at hsegments
  rw [← hsegments.1]
  simp

/-- Every path is a lead and a body. -/
theorem exists_stem (path : Path) : ∃ lead body, Stem path lead body := by
  obtain ⟨stem, hchild, hsegments, hempty⟩ := exists_segments_child path
  by_cases absolute : path.isAbsolute = true
  · -- The text starts with a slash, so the first segment is empty and belongs to the lead.
    cases stem with
    | nil => simp [isAbsolute, hempty.mp rfl] at absolute
    | cons first rest =>
      refine ⟨.root, rest, ?_, ?_, by simp⟩
      · rcases hsegments with same | same <;> simp [parts, absolute, same]
      · intro name hname
        simp [parts, isAbsolute_child hname, absolute, hchild name hname]
  · have relative : path.isAbsolute = false := by simpa using absolute
    cases stem with
    | nil =>
      obtain rfl : path = ⟨""⟩ := congrArg Path.mk (hempty.mp rfl)
      refine ⟨.none, [], .inr rfl, ?_, fun _ => .inl rfl⟩
      intro name hname
      simp [parts, isAbsolute_child hname, relative, hchild name hname, hname.notHere]
    | cons first rest =>
      by_cases here : first = "."
      · refine ⟨.here, rest, ?_, ?_, by simp⟩
        · rcases hsegments with same | same <;> simp [parts, relative, same, here]
        · intro name hname
          simp [parts, isAbsolute_child hname, relative, hchild name hname, here]
      · refine ⟨.none, first :: rest, ?_, ?_, fun _ => .inr ⟨first, rest, rfl, ?_⟩⟩
        · rcases hsegments with same | same <;> simp [parts, relative, same, here]
        · intro name hname
          simp [parts, isAbsolute_child hname, relative, hchild name hname, here]
        · have nonempty : path.text ≠ "" := fun empty => by simpa using hempty.mpr empty
          have : first ≠ "" := by
            rcases hsegments with same | same
            · exact head_segments relative same nonempty
            · exact head_segments relative (by simpa using same) nonempty
          unfold isIdle Component.ofSegment?
          simp only [this, here, or_self, if_false]
          split <;> simp

theorem Stem.of_child {path : Path} {lead : Lead} {body : List String} (h : Stem path lead body)
    {name : String} (hname : IsName name) : Stem (path.child name) lead (body ++ [name]) := by
  obtain ⟨lead', body', hstem⟩ := exists_stem (path.child name)
  have same := h.child name hname
  rcases hstem.parts with hparts | hparts
  · obtain ⟨rfl, rfl⟩ := Prod.mk.injEq .. |>.mp (hparts.symm.trans same)
    exact hstem
  · obtain ⟨-, hbody⟩ := Prod.mk.injEq .. |>.mp (hparts.symm.trans same)
    have := List.append_inj_right' hbody rfl
    exact absurd (by simpa using this.symm) hname.notEmpty

/-- The path of what the names lead to. -/
def descend (path : Path) (names : List String) : Path :=
  names.foldl child path

@[simp] theorem descend_nil (path : Path) : path.descend [] = path := rfl

@[simp] theorem descend_cons (path : Path) (name : String) (names : List String) :
    path.descend (name :: names) = (path.child name).descend names := rfl

theorem descend_append (path : Path) (names more : List String) :
    path.descend (names ++ more) = (path.descend names).descend more := by
  simp [descend]

theorem Stem.descend {path : Path} {lead : Lead} {body : List String} (h : Stem path lead body)
    {names : List String} (hnames : AreNames names) :
    Stem (path.descend names) lead (body ++ names) := by
  induction names generalizing path body with
  | nil => simpa using h
  | cons name names ih =>
    rw [areNames_cons] at hnames
    simpa using ih (h.of_child hnames.1) hnames.2

theorem Stem.components {path : Path} {lead : Lead} {body : List String} (h : Stem path lead body) :
    path.components = lead.components ++ body.filterMap Component.ofSegment? := by
  rcases h.parts with hparts | hparts
  · simp [Path.components, hparts]
  · simp [Path.components, hparts, ofSegment?_empty]

/-- The names come behind the components of the path. -/
theorem components_descend (path : Path) {names : List String} (hnames : AreNames names) :
    (path.descend names).components = path.components ++ names.map .name := by
  obtain ⟨lead, body, hstem⟩ := exists_stem path
  rw [(hstem.descend hnames).components, hstem.components, List.filterMap_append, hnames.filterMap,
    List.append_assoc]

/-- Different names lead to different paths. -/
theorem descend_injective {path : Path} {names others : List String} (hnames : AreNames names)
    (hothers : AreNames others) (h : path.descend names = path.descend others) :
    names = others := by
  have := congrArg components h
  rw [components_descend path hnames, components_descend path hothers] at this
  exact List.map_injective_iff.mpr (fun _ _ => by simp) (List.append_cancel_left this)

/-! ## Relative paths -/

theorem dropIdleEnd_of_areNames {names : List String} (h : AreNames names) :
    dropIdleEnd names = names := by
  rcases List.eq_nil_or_concat' names with rfl | ⟨init, last, rfl⟩
  · rfl
  · have : IsName last := h last (by simp)
    simp [dropIdleEnd, this.isIdle]

theorem dropIdleEnd_append_empty (body : List String) :
    dropIdleEnd (body ++ [""]) = dropIdleEnd body := by
  have : isIdle "" = true := rfl
  simp [dropIdleEnd, this]

/-- Cutting off as many components as stand before the names leaves the names. -/
theorem dropComponents_append (body : List String) {names : List String} (hnames : AreNames names) :
    dropComponents (body.filterMap Component.ofSegment?).length (body ++ names) = names := by
  have noIdle : names.dropWhile isIdle = names := by
    cases names with
    | nil => rfl
    | cons name names => simp [(areNames_cons.mp hnames).1.isIdle]
  induction body with
  | nil => simp [dropComponents, noIdle, dropIdleEnd_of_areNames hnames]
  | cons segment body ih =>
    cases hsegment : Component.ofSegment? segment with
    | some component =>
      simp only [List.filterMap_cons, hsegment, List.length_cons, List.cons_append, dropComponents]
      simpa [isIdle, hsegment] using ih
    | none =>
      simp only [List.filterMap_cons, hsegment, List.cons_append]
      cases hcount : (body.filterMap Component.ofSegment?).length with
      | zero =>
        rw [hcount] at ih
        simpa [dropComponents, isIdle, hsegment] using ih
      | succ n =>
        rw [hcount] at ih
        simpa [dropComponents, isIdle, hsegment] using ih

theorem dropComponents_append_empty (n : Nat) (body : List String) :
    dropComponents n (body ++ [""]) = dropComponents n body := by
  have idle : isIdle "" = true := rfl
  fun_induction dropComponents n body with
  | case1 body =>
    rw [dropComponents, List.dropWhile_append]
    split
    · next h =>
      rw [List.isEmpty_iff] at h
      simp [h, idle, dropIdleEnd]
    · exact dropIdleEnd_append_empty _
  | case2 n =>
    cases n <;> simp [dropComponents, idle]
  | case3 n segment rest hidle ih => simpa [dropComponents, hidle] using ih
  | case4 n segment rest hidle ih => simpa [dropComponents, hidle] using ih

/-- The part of a path below its root is the names that lead to it. -/
theorem relativeTo_descend (path : Path) {names : List String} (hnames : AreNames names) :
    (path.descend names).relativeTo path = ⟨joinSlashes names⟩ := by
  obtain ⟨lead, body, hstem⟩ := exists_stem path
  have starts : (path.descend names).startsWith path = true := by
    rw [startsWith, components_descend path hnames]
    simp
  have count : path.components.length =
      lead.components.length + (body.filterMap Component.ofSegment?).length := by
    rw [hstem.components, List.length_append]
  obtain ⟨body', hparts, hbody'⟩ : ∃ body', (path.descend names).parts = (lead, body') ∧
      (body' = body ++ names ∨ body' = body ++ names ++ [""]) := by
    rcases (hstem.descend hnames).parts with h | h
    · exact ⟨_, h, .inl rfl⟩
    · exact ⟨_, h, .inr rfl⟩
  have dropped : dropComponents (body.filterMap Component.ofSegment?).length body' = names := by
    rcases hbody' with rfl | rfl
    · exact dropComponents_append body hnames
    · rw [dropComponents_append_empty, dropComponents_append body hnames]
  rw [relativeTo, relativeTo?, if_pos starts]
  simp only [hparts]
  split
  · -- Only the empty path has no components.
    next hzero =>
    have noLead : lead = .none := by
      have : lead.components.length = 0 := by omega
      cases lead <;> simp [Lead.components] at this ⊢
    have noBody : body = [] := by
      rcases hstem.head noLead with rfl | ⟨first, rest, rfl, hfirst⟩
      · rfl
      · obtain ⟨component, hcomponent⟩ : ∃ component, Component.ofSegment? first = some component :=
          Option.isSome_iff_exists.mp (by simpa [isIdle] using hfirst)
        simp only [List.filterMap_cons, hcomponent, List.length_cons] at count
        omega
    have : dropIdleEnd body' = names := by
      rcases hbody' with rfl | rfl <;>
        simp [noBody, dropIdleEnd_append_empty, dropIdleEnd_of_areNames hnames]
    simp [this, noLead, ofParts]
  · next =>
    have : path.components.length - lead.components.length =
        (body.filterMap Component.ofSegment?).length := by
      omega
    simp [this, dropped, ofParts]

theorem glue_child {path : Path} {name : String} (h : IsName name) :
    (path.child name).glue = "/" := by
  have := isEmpty_child path h
  simp [glue, this, endsInSlash_child h]

theorem isAbsolute_joinSlashes {name : String} {names : List String} (h : IsName name) :
    (Path.mk (joinSlashes (name :: names))).isAbsolute = false := by
  have nonempty : name.toList ≠ [] := by simpa using h.notEmpty
  have := isAbsolute_of_isName h
  unfold isAbsolute at this ⊢
  cases names with
  | nil => simpa [joinSlashes] using this
  | cons other names =>
    simpa [joinSlashes, List.head?_append_of_ne_nil _ nonempty] using this

/-- Seen from any path, joined names lead to what the names lead to. -/
theorem join_joinSlashes (path : Path) {name : String} {names : List String}
    (hnames : AreNames (name :: names)) :
    path.join ⟨joinSlashes (name :: names)⟩ = path.descend (name :: names) := by
  induction names generalizing path name with
  | nil => rfl
  | cons other names ih =>
    have hname := (areNames_cons.mp hnames).1
    have hother := (areNames_cons.mp hnames).2
    have later := ih (path.child name) hother
    rw [join_eq (isAbsolute_joinSlashes (areNames_cons.mp hother).1), glue_child hname,
      child_eq hname] at later
    rw [join_eq (isAbsolute_joinSlashes hname), descend_cons, child_eq hname, ← later]
    simp [joinSlashes, String.append_assoc]

theorem joinSlashes_eq_empty {names : List String} (hnames : AreNames names) :
    joinSlashes names = "" ↔ names = [] := by
  cases names with
  | nil => simp [joinSlashes]
  | cons name names =>
    have := (areNames_cons.mp hnames).1.notEmpty
    cases names <;> simp [joinSlashes, this]

/-- The names among the components, outermost first. -/
def names (path : Path) : List String :=
  path.components.filterMap fun
    | .name name => some name
    | _ => none

/-- The path is absolute and no `..` is on it, so that without links its names are the way. -/
structure IsDirect (path : Path) : Prop where
  absolute : path.isAbsolute = true
  noUp : .up ∉ path.components

theorem components_of_isAbsolute {path : Path} (h : path.isAbsolute = true) :
    path.components = .root :: path.segments.tail.filterMap Component.ofSegment? := by
  simp [components, parts, h, Lead.components]

theorem segments_slash_join {body : List String} (h : ∀ segment ∈ body, '/' ∉ segment.toList) :
    (Path.mk ("/" ++ joinSlashes body)).segments = "" :: (if body = [] then [""] else body) := by
  have : "/" ++ joinSlashes body = "" ++ "/" ++ joinSlashes body := by simp
  rw [this, segments_append_slash, segments_empty]
  split
  · next hnil => simp [hnil, joinSlashes]
  · next hne => simp [segments_joinSlashes hne h]

theorem isAbsolute_slash (text : String) : (Path.mk ("/" ++ text)).isAbsolute = true := by
  simp [isAbsolute]

/-- The components of an absolute path written from its body. -/
theorem components_slash_join {body : List String} (h : ∀ segment ∈ body, '/' ∉ segment.toList) :
    (Path.mk ("/" ++ joinSlashes body)).components =
      .root :: body.filterMap Component.ofSegment? := by
  rw [components_of_isAbsolute (isAbsolute_slash _), segments_slash_join h]
  split
  · next hnil => simp [hnil, ofSegment?_empty]
  · rfl

theorem filterMap_dropIdleEnd (body : List String) :
    (dropIdleEnd body).filterMap Component.ofSegment? = body.filterMap Component.ofSegment? := by
  induction body using List.reverseRecOn with
  | nil => rfl
  | append_singleton init last ih =>
    by_cases idle : isIdle last = true
    · have : Component.ofSegment? last = none := by simpa [isIdle] using idle
      have dropped : dropIdleEnd (init ++ [last]) = dropIdleEnd init := by simp [dropIdleEnd, idle]
      rw [dropped, ih]
      simp [this]
    · have : dropIdleEnd (init ++ [last]) = init ++ [last] := by simp [dropIdleEnd, idle]
      rw [this]

/-- What stands below a path has a parent. -/
theorem parent?_descend_ne_none (path : Path) {names : List String} (hnames : AreNames names)
    (hne : names ≠ []) : (path.descend names).parent? ≠ none := by
  obtain ⟨lead, body, hstem⟩ := exists_stem path
  obtain ⟨whole, parts, kept⟩ : ∃ whole, (path.descend names).parts = (lead, whole) ∧
      dropIdleEnd whole = dropIdleEnd (body ++ names) := by
    rcases (hstem.descend hnames).parts with h | h
    · exact ⟨_, h, rfl⟩
    · exact ⟨_, h, dropIdleEnd_append_empty _⟩
  have nonempty : dropIdleEnd (body ++ names) ≠ [] := by
    intro none
    have := filterMap_dropIdleEnd (body ++ names)
    rw [none, List.filterMap_append, hnames.filterMap] at this
    simp [hne] at this
  obtain ⟨first, rest, split⟩ := List.exists_cons_of_ne_nil nonempty
  simp [parent?, parts, kept, split]

theorem dropIdleEnd_sublist (body : List String) : (dropIdleEnd body).Sublist body := by
  rw [dropIdleEnd, List.reverse_sublist.symm, List.reverse_reverse]
  exact List.dropWhile_sublist _

theorem isIdle_last_of_dropIdleEnd {body init : List String} {last : String}
    (h : dropIdleEnd body = init ++ [last]) : isIdle last = false := by
  have reversed : body.reverse.dropWhile isIdle = last :: init.reverse := by
    rw [← List.reverse_reverse (List.dropWhile _ _), ← dropIdleEnd, h]
    simp
  have := List.head?_dropWhile_not isIdle body.reverse
  simpa [reversed] using this

/-- The parent of an absolute path has one component less. -/
theorem parent?_of_isAbsolute {path parent : Path} (h : path.isAbsolute = true)
    (hparent : path.parent? = some parent) :
    parent.isAbsolute = true ∧ parent.components = path.components.dropLast := by
  have hparts : path.parts = (.root, path.segments.tail) := by simp [parts, h]
  simp only [parent?, hparts] at hparent
  cases hbody : dropIdleEnd path.segments.tail using List.reverseRecOn with
  | nil => simp [hbody] at hparent
  | append_singleton init last =>
    simp only [hbody] at hparent
    have hne : init ++ [last] ≠ [] := by simp
    have noSlash : ∀ segment ∈ dropIdleEnd init, '/' ∉ segment.toList := by
      intro segment hmem
      have inInit : segment ∈ init ++ [last] :=
        List.mem_append_left _ ((dropIdleEnd_sublist init).subset hmem)
      rw [← hbody] at inInit
      exact slash_not_mem_segments
        (List.mem_of_mem_tail ((dropIdleEnd_sublist _).subset inInit))
    obtain rfl : Path.mk ("/" ++ joinSlashes (dropIdleEnd init)) = parent := by
      obtain ⟨first, rest, hcons⟩ := List.exists_cons_of_ne_nil hne
      rw [hcons] at hparent
      simpa [ofParts, ← hcons] using hparent
    refine ⟨isAbsolute_slash _, ?_⟩
    have lastComponent : ∃ component, Component.ofSegment? last = some component := by
      have : isIdle last = false := isIdle_last_of_dropIdleEnd hbody
      exact Option.isSome_iff_exists.mp (by simpa [isIdle] using this)
    obtain ⟨component, hcomponent⟩ := lastComponent
    rw [components_slash_join noSlash, components_of_isAbsolute h, filterMap_dropIdleEnd,
      ← filterMap_dropIdleEnd path.segments.tail, hbody]
    simp [hcomponent, List.dropLast_cons_of_ne_nil]

/-- Where the names of a path lead, if no link is on the way: innermost name first. -/
def location (path : Path) : List String :=
  path.names.reverse

theorem names_eq_of_isAbsolute {path : Path} (h : path.isAbsolute = true) :
    path.names = (path.segments.tail.filterMap Component.ofSegment?).filterMap fun
      | .name name => some name
      | _ => none := by
  rw [names, components_of_isAbsolute h]
  rfl

theorem isDirect_parent? {path parent : Path} (h : path.IsDirect)
    (hparent : path.parent? = some parent) :
    parent.IsDirect ∧ parent.location <:+ path.location := by
  obtain ⟨absolute, hcomponents⟩ := parent?_of_isAbsolute h.absolute hparent
  have starts : parent.components <+: path.components := by
    rw [hcomponents]
    exact List.dropLast_prefix _
  refine ⟨⟨absolute, fun hmem => h.noUp (starts.subset hmem)⟩, ?_⟩
  exact List.reverse_suffix.mpr (starts.filterMap _)

/-- A path, or the parent of one above it. -/
inductive Above (ancestor : Path) : Path → Prop where
  | refl : Above ancestor ancestor
  | parent {path parent : Path} : path.parent? = some parent → Above ancestor parent →
      Above ancestor path

theorem above_of_mem_ancestorsUpTo {n : Nat} {ancestor path : Path}
    (h : ancestor ∈ ancestorsUpTo n path) : Above ancestor path := by
  induction n generalizing path with
  | zero =>
    obtain rfl : ancestor = path := by simpa [ancestorsUpTo] using h
    exact .refl
  | succ n ih =>
    rw [ancestorsUpTo] at h
    cases hparent : path.parent? with
    | none =>
      obtain rfl : ancestor = path := by simpa [hparent] using h
      exact .refl
    | some parent =>
      simp only [hparent, List.mem_cons] at h
      rcases h with rfl | later
      · exact .refl
      · exact .parent hparent (ih later)

theorem Above.isDirect {ancestor path : Path} (h : Above ancestor path) (hpath : path.IsDirect) :
    ancestor.IsDirect ∧ ancestor.location <:+ path.location := by
  induction h with
  | refl => exact ⟨hpath, List.suffix_refl _⟩
  | parent hparent _ ih =>
    obtain ⟨direct, shorter⟩ := isDirect_parent? hpath hparent
    exact ⟨(ih direct).1, (ih direct).2.trans shorter⟩

theorem isAbsolute_descend (path : Path) {names : List String} (hnames : AreNames names) :
    (path.descend names).isAbsolute = path.isAbsolute := by
  induction names generalizing path with
  | nil => rfl
  | cons name names ih =>
    rw [areNames_cons] at hnames
    rw [descend_cons, ih _ hnames.2, isAbsolute_child hnames.1]

theorem names_descend (path : Path) {names : List String} (hnames : AreNames names) :
    (path.descend names).names = path.names ++ names := by
  rw [Path.names, components_descend path hnames, List.filterMap_append]
  simp [Path.names, List.filterMap_map]

theorem location_descend (path : Path) {names : List String} (hnames : AreNames names) :
    (path.descend names).location = names.reverse ++ path.location := by
  simp [location, names_descend path hnames]

theorem IsDirect.descend {path : Path} (h : path.IsDirect) {names : List String}
    (hnames : AreNames names) : (path.descend names).IsDirect := by
  refine ⟨by rw [isAbsolute_descend path hnames, h.absolute], ?_⟩
  rw [components_descend path hnames]
  simpa using h.noUp

/-- The components of a direct path are the root and its names. -/
theorem IsDirect.components_eq {path : Path} (h : path.IsDirect) :
    path.components = .root :: path.names.map .name := by
  have noUp := h.noUp
  rw [names, components_of_isAbsolute h.absolute] at *
  rw [List.mem_cons, not_or] at noUp
  generalize path.segments.tail = body at noUp
  simp only [List.filterMap_cons, List.cons.injEq, true_and]
  induction body with
  | nil => rfl
  | cons segment body ih =>
    cases hsegment : Component.ofSegment? segment with
    | none =>
      simp only [List.filterMap_cons, hsegment] at noUp ⊢
      exact ih noUp
    | some component =>
      simp only [List.filterMap_cons, hsegment, List.mem_cons, not_or] at noUp ⊢
      unfold Component.ofSegment? at hsegment
      split at hsegment
      · simp at hsegment
      · split at hsegment
        · obtain rfl := Option.some.inj hsegment
          exact absurd rfl noUp.2.1
        · obtain rfl := Option.some.inj hsegment
          rw [List.map_cons, ← ih ⟨noUp.1, noUp.2.2⟩]

theorem segments_of_isAbsolute {path : Path} (h : path.isAbsolute = true) :
    path.segments = "" :: path.segments.tail := by
  simp only [isAbsolute, beq_iff_eq] at h
  obtain ⟨cs, hcs⟩ := List.head?_eq_some_iff.mp h
  simp [segments, hcs, splitSlashes]

theorem IsDirect.up_not_mem_segments {path : Path} (h : path.IsDirect) : ".." ∉ path.segments := by
  rw [segments_of_isAbsolute h.absolute, List.mem_cons, not_or]
  refine ⟨by decide, fun hmem => h.noUp ?_⟩
  rw [components_of_isAbsolute h.absolute]
  exact List.mem_cons_of_mem _ (List.mem_filterMap.mpr ⟨"..", hmem, rfl⟩)

/-- The names of a direct path are the segments that mean something. -/
theorem IsDirect.names_eq {path : Path} (h : path.IsDirect) :
    path.names = path.segments.filter (! isIdle ·) := by
  have noUp : ∀ segment ∈ path.segments.tail, segment ≠ ".." := by
    rintro segment hmem rfl
    exact h.up_not_mem_segments (List.mem_of_mem_tail hmem)
  rw [names_eq_of_isAbsolute h.absolute, segments_of_isAbsolute h.absolute,
    List.filter_cons_of_neg (by simp [isIdle, ofSegment?_empty]), List.tail_cons,
    List.filterMap_filterMap]
  generalize path.segments.tail = body at noUp
  induction body with
  | nil => rfl
  | cons segment body ih =>
    have ih := ih fun other hmem => noUp other (List.mem_cons_of_mem _ hmem)
    have := noUp segment List.mem_cons_self
    by_cases idle : segment = "" ∨ segment = "."
    · have none : Component.ofSegment? segment = none := by simp [Component.ofSegment?, idle]
      rw [List.filterMap_cons, List.filter_cons_of_neg (by simp [isIdle, none]), ← ih]
      simp [none]
    · have some : Component.ofSegment? segment = some (.name segment) := by
        simp [Component.ofSegment?, idle, this]
      rw [List.filterMap_cons, List.filter_cons_of_pos (by simp [isIdle, some]), ← ih]
      simp [some]

end Path

end Phrasebook
