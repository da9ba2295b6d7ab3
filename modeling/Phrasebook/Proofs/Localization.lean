import Mathlib.Algebra.GroupWithZero.Nat
import Phrasebook.Proofs.TreeCopy

/-!
# What localization leaves behind

Main statement: if no issues come up while a tree at a site is localized, every file there then holds
its text with the literals of the catalog replaced, or its old bytes if they are no text, and the
numbers that are returned count what has been replaced.
-/

namespace Phrasebook

/-! ## One text -/

namespace Text

theorem replaceFrom_eq_self {pattern new text : List Char}
    (h : (replaceFrom pattern new 0 text).2 = 0) : (replaceFrom pattern new 0 text).1 = text := by
  induction text with
  | nil => rfl
  | cons c cs ih =>
    rw [replaceFrom] at h ⊢
    split at h
    · simp at h
    · next absent =>
      rw [if_neg absent]
      simp [ih h]

theorem replace_eq_self {pattern new text : List Char} (h : (replace pattern new text).2 = 0) :
    (replace pattern new text).1 = text := by
  rw [replace] at h ⊢
  split at h
  · simp at h
  · next nonempty =>
    rw [if_neg nonempty]
    exact replaceFrom_eq_self h

end Text

theorem Replacement.applyAll_eq_self {replacements : List Replacement} {text : List Char}
    (h : (applyAll replacements text).2 = 0) : (applyAll replacements text).1 = text := by
  induction replacements generalizing text with
  | nil => rfl
  | cons replacement replacements ih =>
    obtain ⟨first, rest⟩ :
        (Text.replace replacement.quoted.toList replacement.call.toList text).2 = 0 ∧
        (applyAll replacements (Text.replace replacement.quoted.toList
          replacement.call.toList text).1).2 = 0 := by
      simpa [applyAll] using h
    have same := Text.replace_eq_self first
    rw [same] at rest
    simp [applyAll, same, ih rest]

/-- A text in which nothing is replaced is left as it is. -/
theorem localizeText_eq_self {text : String} {replacements : List Replacement}
    (h : (localizeText text replacements).2 = 0) : (localizeText text replacements).1 = text := by
  have same := Replacement.applyAll_eq_self h
  simp [localizeText, same]

theorem bytes_of_fromUTF8? {bytes : ByteArray} {text : String}
    (h : String.fromUTF8? bytes = some text) : text.toUTF8 = bytes := by
  unfold String.fromUTF8? at h
  split at h
  · obtain rfl := Option.some.inj h
    rfl
  · simp at h

/-- The bytes of a localized file: a text has its literals replaced, anything else stays. -/
def localizedBytes (replacements : List Replacement) (bytes : ByteArray) : ByteArray :=
  match String.fromUTF8? bytes with
  | none => bytes
  | some text => (localizeText text replacements).1.toUTF8

/-- How many occurrences are replaced in the bytes of a file. -/
def replacedIn (replacements : List Replacement) (bytes : ByteArray) : Nat :=
  match String.fromUTF8? bytes with
  | none => 0
  | some text => (localizeText text replacements).2

theorem localizedBytes_eq_self {replacements : List Replacement} {bytes : ByteArray}
    (h : replacedIn replacements bytes = 0) : localizedBytes replacements bytes = bytes := by
  unfold replacedIn at h
  unfold localizedBytes
  split
  · rfl
  · next text decoded =>
    rw [decoded] at h
    rw [localizeText_eq_self h, bytes_of_fromUTF8? decoded]

theorem replacedIn_nil (bytes : ByteArray) : replacedIn [] bytes = 0 := by
  unfold replacedIn
  split <;> rfl

/-! ## The files at a site -/

namespace Walk

/-- No trouble is among the events. -/
def Smooth (happened : List Event) : Prop :=
  ∀ trouble, Event.trouble trouble ∉ happened

theorem smooth_of_unlisted {root : Path} {happened : List Event}
    (h : unlisted root happened = []) : Smooth happened := by
  intro trouble hmem
  simpa using List.filterMap_eq_nil_iff.mp h _ hmem

end Walk

namespace Disk

open Walk

variable {disk now : Disk} {output : Location}

section

variable (hsite : disk.IsSite output) (hbuilt : disk.Built output now)
include hsite hbuilt

/-- A walk that meets with no trouble goes through what a directory at the site holds. -/
theorem IsSite.eventsFrom_directory {depth : Nat} {ancestors : List Path} {names : List String}
    (hnames : Path.AreNames names)
    (hsmooth : Smooth
      (eventsFrom now false (depth + 1) ancestors (output.path.descend names) .directory)) :
    eventsFrom now false (depth + 1) ancestors (output.path.descend names) .directory =
      .entry ⟨output.path.descend names, .directory⟩ ::
        (sortByName (now.names (names.reverse ++ output))).flatMap fun item =>
          eventsFrom now false depth (output.path.descend names :: ancestors)
            (output.path.descend (names ++ [item.1])) item.2 := by
  rw [eventsFrom_of_directory] at hsmooth ⊢
  cases listed : now.list (output.path.descend names) with
  | error e =>
    rw [listed] at hsmooth
    exact absurd (List.mem_cons_of_mem _ List.mem_cons_self) (hsmooth _)
  | ok items =>
    obtain ⟨place, access, leads, rfl⟩ := list_eq_ok listed
    have same : place = names.reverse ++ output :=
      hsite.place_eq hbuilt hnames (find_eq_ok_iff.mp leads)
    simp only [same, Path.descend_append, Path.descend_cons, Path.descend_nil]

/-- A walk that meets with no trouble at a site reports the files that stand there. -/
theorem IsSite.mem_eventsFrom {depth : Nat} {ancestors : List Path} {names : List String}
    (hnames : Path.AreNames names) {node : Node}
    (found : now.get? (names.reverse ++ output) = some node)
    (hsmooth : Smooth (eventsFrom now false depth ancestors (output.path.descend names) node.kind))
    {more : List String} (hmore : Path.AreNames more) :
    .entry ⟨output.path.descend (names ++ more), .file⟩ ∈
        eventsFrom now false depth ancestors (output.path.descend names) node.kind ↔
      ∃ node', now.get? ((names ++ more).reverse ++ output) = some node' ∧ node'.IsFile := by
  have hnow := hbuilt.wellFormed
  induction depth generalizing ancestors names node more with
  | zero =>
    rw [eventsFrom] at hsmooth
    exact absurd List.mem_cons_self (hsmooth _)
  | succ depth ih =>
    rcases hsite.plain_below hbuilt (List.suffix_append _ _) found with ⟨access, rfl⟩ | isFile
    · rw [Node.kind] at hsmooth ⊢
      have shape := hsite.eventsFrom_directory hbuilt hnames hsmooth
      rw [shape] at hsmooth ⊢
      have within : ∀ item ∈ sortByName (now.names (names.reverse ++ output)),
          Smooth (eventsFrom now false depth (output.path.descend names :: ancestors)
            (output.path.descend (names ++ [item.1])) item.2) := fun item hmem trouble htrouble =>
        hsmooth trouble (List.mem_cons_of_mem _ (List.mem_flatMap.mpr ⟨item, hmem, htrouble⟩))
      constructor
      · intro hmem
        rcases List.mem_cons.mp hmem with same | inside
        · simp at same
        obtain ⟨⟨name, kind⟩, hitem, hevent⟩ := List.mem_flatMap.mp inside
        obtain ⟨child, there, rfl⟩ := hnow.mem_names.mp (mem_sortByName.mp hitem)
        have hname := hnow.isName there
        have hchild : Path.AreNames (names ++ [name]) := by simp [hnames, hname]
        -- An entry that is reported below a child has the name of the child on its path.
        obtain ⟨rest, hrest, same⟩ := below_of_mem_eventsFrom hnow hevent
        rw [← Path.descend_append] at same
        have := Path.descend_injective (by simp [hnames, hmore]) 
          (by simp [hnames, hname, hrest]) same
        rw [this] at hevent ⊢
        exact (ih hchild (by simpa using there) (within _ hitem) hrest).mp hevent
      · rintro ⟨node', found', isFile⟩
        cases more with
        | nil =>
          rw [List.append_nil, found] at found'
          obtain rfl := Option.some.inj found'
          simp at isFile
        | cons name rest =>
          rw [Path.areNames_cons] at hmore
          have onWay : name :: (names.reverse ++ output) <:+
              (names ++ name :: rest).reverse ++ output := ⟨rest.reverse, by simp⟩
          obtain ⟨child, there⟩ :
              ∃ child, now.get? (name :: (names.reverse ++ output)) = some child := by
            rcases hnow.get?_of_suffix found' onWay with same | ⟨access', directory⟩
            · exact ⟨node', same ▸ found'⟩
            · exact ⟨_, directory⟩
          have hitem : (name, child.kind) ∈ sortByName (now.names (names.reverse ++ output)) :=
            mem_sortByName.mpr (hnow.mem_names.mpr ⟨child, there, rfl⟩)
          have split : names ++ name :: rest = names ++ [name] ++ rest := by simp
          rw [split] at found' ⊢
          refine List.mem_cons_of_mem _ (List.mem_flatMap.mpr ⟨_, hitem, ?_⟩)
          exact (ih (by simp [hnames, hmore.1]) (by simpa using there) (within _ hitem) hmore.2).mpr
            ⟨node', found', isFile⟩
    · obtain ⟨content, access, rfl⟩ := isFile
      have leaf : eventsFrom now false (depth + 1) ancestors (output.path.descend names) .file =
          [.entry ⟨output.path.descend names, .file⟩] := rfl
      rw [Node.kind, leaf, List.mem_singleton, Event.entry.injEq, Entry.mk.injEq]
      constructor
      · rintro ⟨same, -⟩
        obtain rfl : more = [] := by
          simpa using Path.descend_injective (by simp [hnames, hmore]) hnames same
        exact ⟨_, by simpa using found, by simp⟩
      · rintro ⟨node', found', -⟩
        rw [List.reverse_append, List.append_assoc] at found'
        have := hnow.eq_nil_of_file found (by simp) found'
        simp [List.reverse_eq_nil_iff.mp this]

theorem IsSite.mem_files (hsmooth : Smooth (events now false output.path)) {names : List String}
    (hnames : Path.AreNames names) :
    output.path.descend names ∈ files (events now false output.path) ↔
      ∃ node, now.get? (names.reverse ++ output) = some node ∧ node.IsFile := by
  rw [Walk.mem_files]
  rw [events] at hsmooth ⊢
  cases there : now.find .entry output.path with
  | error e =>
    rw [entryKind, there] at hsmooth
    exact absurd List.mem_cons_self (hsmooth _)
  | ok reached =>
    obtain ⟨place, node⟩ := reached
    have same : place = output :=
      hsite.place_eq hbuilt Path.areNames_nil (find_eq_ok_iff.mp there)
    have found : now.get? output = some node := same ▸ get?_of_find there
    rw [entryKind, there] at hsmooth ⊢
    exact hsite.mem_eventsFrom hbuilt Path.areNames_nil found hsmooth hnames

theorem IsSite.mem_found_iff (hsmooth : Smooth (events now false output.path))
    {found : List (List String)} (hfound : ∀ names ∈ found, Path.AreNames names)
    (hfiles : files (events now false output.path) = found.map output.path.descend)
    (names : List String) :
    names ∈ found ↔ Path.AreNames names ∧
      ∃ node, now.get? (names.reverse ++ output) = some node ∧ node.IsFile := by
  constructor
  · intro hmem
    have hnames := hfound names hmem
    refine ⟨hnames, (hsite.mem_files hbuilt hsmooth hnames).mp ?_⟩
    rw [hfiles]
    exact List.mem_map_of_mem hmem
  · rintro ⟨hnames, there⟩
    have reported := (hsite.mem_files hbuilt hsmooth hnames).mpr there
    rw [hfiles] at reported
    obtain ⟨other, hother, same⟩ := List.mem_map.mp reported
    exact Path.descend_injective (hfound other hother) hnames same ▸ hother

/-- Reading a file at the site gives the bytes that stand there. -/
theorem IsSite.read_eq {names : List String} (hnames : Path.AreNames names)
    {content bytes : ByteArray} {access : Access}
    (found : now.get? (names.reverse ++ output) = some (.file content access))
    (h : now.read (output.path.descend names) = .ok bytes) : bytes = content := by
  unfold read at h
  split at h
  · simp at h
  · next place node leads =>
    have same : place = names.reverse ++ output :=
      hsite.place_eq hbuilt hnames (find_eq_ok_iff.mp leads)
    have there := get?_of_find leads
    rw [same, found] at there
    obtain rfl := Option.some.inj there
    split at h
    · simp at h
    · exact (Except.ok.inj h).symm

/-- Writing to a file at the site keeps its permissions. -/
theorem IsSite.insert_of_write {names : List String} (hnames : Path.AreNames names)
    {content bytes : ByteArray} {access : Access} {later : Disk}
    (found : now.get? (names.reverse ++ output) = some (.file content access))
    (h : now.write (output.path.descend names) bytes = .ok later) :
    later = now.insert (names.reverse ++ output) (.file bytes access) := by
  obtain ⟨old, rfl, before⟩ := hsite.insert_of_store hbuilt hnames (fun _ => by simp) h
  rcases before with ⟨-, absent⟩ | ⟨content', access', there, rfl⟩
  · simp [found] at absent
  · obtain ⟨-, rfl⟩ : content = content' ∧ access = access' := by simpa [found] using there
    rfl

end

end Disk

/-! ## Localizing a tree -/

namespace Session

open Disk Walk Phrasebook.Localization

variable {σ : Type} {root : Path} {replacements : List Replacement}

/-- The walk notes the files and keeps the trouble as issues. -/
theorem relay_onEvent_localize (happened : List Event) (found : Found) (state : State σ) :
    exec (relay (onEvent root) happened found) state =
      (⟨found.issues ++ unlisted root happened, found.files ++ files happened⟩, state) := by
  induction happened generalizing found with
  | nil => simp [relay, exec_pure]
  | cons event happened ih =>
    rw [exec_relay_cons, files_cons]
    cases event with
    | trouble trouble =>
      rw [onEvent, exec_pure, ih]
      simp
    | entry entry =>
      rw [onEvent, files_entry]
      split
      · rw [exec_pure, ih]
        simp
      · rw [exec_pure, ih]
        simp

theorem addOutcome_issues {done : Localized} {outcome : Localization.Outcome}
    (h : (addOutcome done outcome).issues = []) :
    done.issues = [] ∧ ∀ issue, outcome ≠ .failed issue := by
  cases outcome with
  | unchanged | changed | binary => exact ⟨h, by simp⟩
  | failed issue => simp [addOutcome] at h

/-- Issues are not forgotten. -/
theorem quiet_of_localizeAll {paths : List Path} {done result : Localized} {state state' : State σ}
    (hexec : exec (localizeAll root replacements paths done) state = (result, state'))
    (hquiet : result.issues = []) : done.issues = [] := by
  induction paths generalizing done state with
  | nil =>
    obtain ⟨rfl, -⟩ := Prod.mk.inj hexec
    exact hquiet
  | cons path paths ih =>
    rw [localizeAll, exec_bind] at hexec
    exact (addOutcome_issues (ih hexec)).1

/-- Files at a site with known bytes have been localized, and what has been replaced is counted. -/
structure Rewrites (replacements : List Replacement) (output : Location)
    (bytes : List String → ByteArray) (found : List (List String)) (before after : Disk)
    (done result : Localized) : Prop where
  files : ∀ names ∈ found, ∃ access, after.get? (names.reverse ++ output) =
    some (.file (localizedBytes replacements (bytes names)) access)
  others : ∀ place, (∀ names ∈ found, place ≠ names.reverse ++ output) →
    after.get? place = before.get? place
  filesChanged : result.filesChanged = done.filesChanged +
    found.countP fun names => replacedIn replacements (bytes names) ≠ 0
  replaced : result.replacements = done.replacements +
    (found.map fun names => replacedIn replacements (bytes names)).sum

section

variable {disk : Disk} {output : Location} {bytes : List String → ByteArray}

/-- Files in which nothing is found are not touched. -/
theorem rewrites_untouched {before : Disk} {found : List (List String)}
    (hthere : ∀ names ∈ found, ∃ access,
      before.get? (names.reverse ++ output) = some (.file (bytes names) access))
    (hnone : ∀ names ∈ found, replacedIn replacements (bytes names) = 0) {done result : Localized}
    (hchanged : result.filesChanged = done.filesChanged)
    (hreplaced : result.replacements = done.replacements) :
    Rewrites replacements output bytes found before before done result where
  files := by
    intro names hmem
    obtain ⟨access, there⟩ := hthere names hmem
    exact ⟨access, by rw [localizedBytes_eq_self (hnone names hmem), there]⟩
  others _ _ := rfl
  filesChanged := by
    have none : found.countP (fun names => replacedIn replacements (bytes names) ≠ 0) = 0 :=
      List.countP_eq_zero.mpr fun names hmem => by simp [hnone names hmem]
    rw [none, hchanged, Nat.add_zero]
  replaced := by
    have none : (found.map fun names => replacedIn replacements (bytes names)).sum = 0 :=
      List.sum_eq_zero_iff_forall_eq_nat.mpr fun count hmem => by
        obtain ⟨names, hnames, rfl⟩ := List.mem_map.mp hmem
        exact hnone names hnames
    rw [none, hreplaced, Nat.add_zero]

/-- A file is written with its text localized. -/
theorem rewrites_insert {before : Disk} {names : List String} {access : Access}
    {content : ByteArray} (hcontent : content = localizedBytes replacements (bytes names))
    {done result : Localized} (hsome : replacedIn replacements (bytes names) ≠ 0)
    (hchanged : result.filesChanged = done.filesChanged + 1)
    (hreplaced : result.replacements = done.replacements + replacedIn replacements (bytes names)) :
    Rewrites replacements output bytes [names] before
      (before.insert (names.reverse ++ output) (.file content access)) done result where
  files := by
    simp only [List.mem_singleton, forall_eq]
    exact ⟨access, by rw [get?_insert_self, hcontent]⟩
  others place hne := get?_insert_of_ne before _ (hne names List.mem_cons_self)
  filesChanged := by simp [hchanged, hsome]
  replaced := by simp [hreplaced]

theorem Rewrites.append {found later : List (List String)} {before between after : Disk}
    {done middle result : Localized}
    (h : Rewrites replacements output bytes found before between done middle)
    (h' : Rewrites replacements output bytes later between after middle result) :
    Rewrites replacements output bytes (found ++ later) before after done result where
  files := by
    intro names hmem
    by_cases inLater : names ∈ later
    · exact h'.files names inLater
    · obtain ⟨access, there⟩ := h.files names ((List.mem_append.mp hmem).resolve_right inLater)
      refine ⟨access, (h'.others _ fun other hother same => ?_).trans there⟩
      obtain rfl : names = other := by simpa using same
      exact inLater hother
  others := by
    intro place hne
    rw [h'.others place fun names hmem => hne names (List.mem_append_right _ hmem),
      h.others place fun names hmem => hne names (List.mem_append_left _ hmem)]
  filesChanged := by rw [h'.filesChanged, h.filesChanged, List.countP_append, Nat.add_assoc]
  replaced := by rw [h'.replaced, h.replaced, List.map_append, List.sum_append, Nat.add_assoc]

/-- The files that were localized hold the localized bytes, and there is no other file. -/
theorem Rewrites.get?_file_iff {found : List (List String)} {before after : Disk}
    {done result : Localized}
    (h : Rewrites replacements output bytes found before after done result) {names : List String}
    (hmem : ∀ content access,
      before.get? (names.reverse ++ output) = some (.file content access) → names ∈ found)
    {content : ByteArray} :
    (∃ access, after.get? (names.reverse ++ output) = some (.file content access)) ↔
      names ∈ found ∧ content = localizedBytes replacements (bytes names) := by
  constructor
  · rintro ⟨access, there⟩
    by_cases inFound : names ∈ found
    · obtain ⟨access', there'⟩ := h.files names inFound
      obtain ⟨same, -⟩ : content = localizedBytes replacements (bytes names) ∧ access = access' := by
        simpa [there] using there'
      exact ⟨inFound, same⟩
    · have untouched := h.others (names.reverse ++ output) fun other hother same => by
        obtain rfl : names = other := by simpa using same
        exact inFound hother
      exact absurd (hmem content access (untouched ▸ there)) inFound
  · rintro ⟨inFound, rfl⟩
    exact h.files names inFound

variable (hsite : disk.IsSite output)
include hsite

theorem rewrites_localizeFile {state state' : State σ} (hbuilt : disk.Built output state.disk)
    {names : List String} (hnames : Path.AreNames names) {access : Access}
    (found : state.disk.get? (names.reverse ++ output) = some (.file (bytes names) access))
    {outcome : Localization.Outcome}
    (hexec : exec (localizeFile output.path replacements (output.path.descend names)) state =
      (outcome, state'))
    (hdone : ∀ issue, outcome ≠ .failed issue) (done : Localized) :
    disk.Built output state'.disk ∧
      Rewrites replacements output bytes [names] state.disk state'.disk done
        (addOutcome done outcome) := by
  rw [localizeFile, exec_bind, exec_read] at hexec
  cases hread : state.disk.read (output.path.descend names) with
  | error e =>
    rw [hread] at hexec
    obtain ⟨rfl, -⟩ := Prod.mk.inj hexec
    exact absurd rfl (hdone _)
  | ok content =>
    rw [hread] at hexec
    obtain rfl := hsite.read_eq hbuilt hnames found hread
    simp only at hexec
    cases decoded : String.fromUTF8? (bytes names) with
    | none =>
      rw [decoded] at hexec
      obtain ⟨rfl, rfl⟩ := Prod.mk.inj hexec
      exact ⟨hbuilt, rewrites_untouched (by simpa using ⟨access, found⟩)
        (by simp [replacedIn, decoded]) rfl rfl⟩
    | some text =>
      have count : replacedIn replacements (bytes names) = (localizeText text replacements).2 := by
        rw [replacedIn, decoded]
      have content : localizedBytes replacements (bytes names) =
          (localizeText text replacements).1.toUTF8 := by
        rw [localizedBytes, decoded]
      rw [decoded] at hexec
      simp only at hexec
      generalize localizeText text replacements = localized at hexec count content
      obtain ⟨localized, _ | number⟩ := localized
      · obtain ⟨rfl, rfl⟩ := Prod.mk.inj hexec
        exact ⟨hbuilt, rewrites_untouched (by simpa using ⟨access, found⟩) (by simp [count]) rfl rfl⟩
      · simp only [exec_bind, exec_write] at hexec
        cases hwrite : state.disk.write (output.path.descend names) localized.toUTF8 with
        | error e =>
          rw [hwrite] at hexec
          obtain ⟨rfl, -⟩ := Prod.mk.inj hexec
          exact absurd rfl (hdone _)
        | ok later =>
          rw [hwrite] at hexec
          obtain ⟨rfl, rfl⟩ := Prod.mk.inj hexec
          have grown := grows_of_write (fun _ => hsite.allowed_file hnames) hbuilt.wellFormed hwrite
          obtain rfl := hsite.insert_of_write hbuilt hnames found hwrite
          refine ⟨hsite.built_of_grows hbuilt grown, ?_⟩
          exact rewrites_insert content.symm (by rw [count]; simp) rfl (by rw [count]; rfl)

theorem rewrites_localizeAll {found : List (List String)}
    (hfound : ∀ names ∈ found, Path.AreNames names) (hnodup : found.Nodup)
    {state state' : State σ} (hbuilt : disk.Built output state.disk)
    (hthere : ∀ names ∈ found, ∃ access,
      state.disk.get? (names.reverse ++ output) = some (.file (bytes names) access))
    {done result : Localized}
    (hexec : exec (localizeAll output.path replacements (found.map output.path.descend) done) state =
      (result, state'))
    (hquiet : result.issues = []) :
    disk.Built output state'.disk ∧
      Rewrites replacements output bytes found state.disk state'.disk done result := by
  induction found generalizing done state with
  | nil =>
    obtain ⟨rfl, rfl⟩ := Prod.mk.inj hexec
    exact ⟨hbuilt, rewrites_untouched (by simp) (by simp) rfl rfl⟩
  | cons names found ih =>
    rw [List.nodup_cons] at hnodup
    rw [List.map_cons, localizeAll, exec_bind] at hexec
    obtain ⟨access, there⟩ := hthere names List.mem_cons_self
    have hnames := hfound names List.mem_cons_self
    generalize hfile : exec (localizeFile output.path replacements (output.path.descend names))
      state = visited at hexec
    obtain ⟨outcome, between⟩ := visited
    have hdone := (addOutcome_issues (quiet_of_localizeAll hexec hquiet)).2
    obtain ⟨built, first⟩ := rewrites_localizeFile hsite hbuilt hnames there hfile hdone done
    have still : ∀ other ∈ found, ∃ access,
        between.disk.get? (other.reverse ++ output) = some (.file (bytes other) access) := by
      intro other hmem
      obtain ⟨access, before⟩ := hthere other (List.mem_cons_of_mem _ hmem)
      refine ⟨access, (first.others _ ?_).trans before⟩
      intro names' hmem' same
      obtain rfl := List.mem_singleton.mp hmem'
      obtain rfl : other = names' := by simpa using same
      exact hnodup.1 hmem
    obtain ⟨built', rest⟩ := ih (fun other hmem => hfound other (List.mem_cons_of_mem _ hmem))
      hnodup.2 built still hexec
    exact ⟨built', first.append rest⟩

variable (root) in
omit hsite in
/-- The walk before localization leaves the disk alone. -/
theorem exec_walk_localize {state : State σ} (hdisk : state.disk.WellFormed) :
    exec (walk false root (onEvent root) ⟨[], []⟩) state =
      (⟨⟨unlisted root (events state.disk false root), files (events state.disk false root)⟩, true⟩,
        state) := by
  let good (reached : State σ) : Prop := reached = state
  have alike : ∀ reached, good reached → Alike root state.disk reached.disk := by
    intro reached same
    rw [show reached = state from same]
    exact .refl root state.disk
  have visit : ∀ found event reached, good reached → event.Below root →
      good (exec (onEvent root found event) reached).2 ∧
        (exec (onEvent root found event) reached).1.2 = .enter := by
    rintro found event reached same -
    cases event with
    | trouble trouble => exact ⟨same, rfl⟩
    | entry entry =>
      rw [onEvent]
      split
      · exact ⟨same, rfl⟩
      · exact ⟨same, rfl⟩
  rw [exec_walk hdisk alike visit false ⟨[], []⟩ rfl, relay_onEvent_localize]
  rfl

/-- A tree at a site is localized: every file there, and nothing else. -/
theorem rewrites_localizeTree {state state' : State σ} (hbuilt : disk.Built output state.disk)
    (hbytes : ∀ names content access, Path.AreNames names →
      state.disk.get? (names.reverse ++ output) = some (.file content access) →
        content = bytes names)
    {catalog : Catalog} {table : String} {result : Localized}
    (hexec : exec (localizeTree output.path catalog table) state = (result, state'))
    (hquiet : result.issues = []) :
    ∃ found : List (List String), found.Nodup ∧
      (∀ names, names ∈ found ↔ Path.AreNames names ∧
        ∃ node, state.disk.get? (names.reverse ++ output) = some node ∧ node.IsFile) ∧
      disk.Built output state'.disk ∧
      Rewrites (Replacement.ofCatalog catalog table) output bytes found state.disk state'.disk
        ⟨found.length, 0, 0, 0, []⟩ result := by
  have hnow := hbuilt.wellFormed
  rw [localizeTree, exec_bind, exec_walk_localize output.path hnow] at hexec
  obtain ⟨found, hfound, hfiles⟩ := exists_names_of_files hnow false output.path
  have hnodup : found.Nodup := by
    have := nodup_files hnow false output.path
    rw [hfiles] at this
    exact this.of_map
  have quiet : unlisted output.path (events state.disk false output.path) = [] := by
    simp only at hexec
    split at hexec
    · obtain ⟨rfl, -⟩ := Prod.mk.inj hexec
      exact hquiet
    · have := quiet_of_localizeAll hexec hquiet
      exact this
  have members := hsite.mem_found_iff hbuilt (smooth_of_unlisted quiet) hfound hfiles
  have there : ∀ names ∈ found, ∃ access,
      state.disk.get? (names.reverse ++ output) = some (.file (bytes names) access) := by
    intro names hmem
    obtain ⟨hnames, node, found', content, access, rfl⟩ := (members names).mp hmem
    exact ⟨access, hbytes names content access hnames found' ▸ found'⟩
  refine ⟨found, hnodup, members, ?_⟩
  rw [hfiles, quiet] at hexec
  simp only [List.length_map] at hexec
  split at hexec
  · next empty =>
    obtain ⟨rfl, rfl⟩ := Prod.mk.inj hexec
    have noReplacement : Replacement.ofCatalog catalog table = [] := by
      simp [Replacement.ofCatalog, Catalog.entries, List.isEmpty_iff.mp empty, Catalog.number]
    rw [noReplacement]
    exact ⟨hbuilt, rewrites_untouched there (fun _ _ => replacedIn_nil _) rfl rfl⟩
  · exact rewrites_localizeAll hsite hfound hnodup hbuilt there hexec hquiet

end

end Session

end Phrasebook
