import Phrasebook.Proofs.Disk.Site
import Phrasebook.Proofs.Footprint
import Phrasebook.Proofs.Settlement

/-!
# The source folder during a run

A run refuses an output directory or a catalog file that lies in the source folder by its
components. Main statement: the source folder is as before exactly if no path that the run writes to
leads to something else in it than before, and that is so whenever neither `..` nor a link is on
those paths.
-/

namespace Phrasebook

namespace Path

/-- Direct paths lie in each other by components as their locations do. -/
theorem startsWith_iff_suffix {path base : Path} (hpath : path.IsDirect) (hbase : base.IsDirect) :
    path.startsWith base = true ↔ base.location <:+ path.location := by
  rw [startsWith, hpath.components_eq, hbase.components_eq, List.isPrefixOf_iff_prefix,
    List.cons_prefix_cons, location, location, List.reverse_suffix]
  have injective : Function.Injective Component.name := fun _ _ => Component.name.inj
  simp [List.prefix_map_iff_of_injective injective]

end Path

namespace Disk

/-- Everything at and below a location is as before. -/
def SameBelow (location : Location) (disk disk' : Disk) : Prop :=
  ∀ place, location <:+ place → disk'.get? place = disk.get? place

end Disk

namespace Plan

/-- No `..` is on the paths of the output directory and of the catalog file, and no link stands on
    the way to them or below the output directory. -/
structure Straight (disk : Disk) (plan : Plan) : Prop where
  output : .up ∉ plan.outputDir.components
  catalog : .up ∉ plan.catalogFile.components
  noLink : ∀ place node, place <:+ plan.outputDir.location ∨ plan.outputDir.location <:+ place ∨
    place <:+ plan.catalogFile.location → disk.get? place = some node → ¬ node.IsLink

variable {disk : Disk} {plan : Plan}

theorem Settled.isDirect_source (h : Settled disk plan) (hdisk : disk.WellFormed) :
    plan.sourceRoot.IsDirect := by
  obtain ⟨source, hsource, access, found⟩ := h.source
  exact hsource ▸ Location.isDirect_path (hdisk.areNames found)

/-- Without `..`, neither of the source folder and the output directory lies in the other. -/
theorem Settled.outside (h : Settled disk plan) (hdisk : disk.WellFormed)
    (houtput : plan.outputDir.IsDirect) :
    ¬ plan.sourceRoot.location <:+ plan.outputDir.location ∧
      ¬ plan.outputDir.location <:+ plan.sourceRoot.location := by
  have direct := h.isDirect_source hdisk
  constructor
  · rw [← Path.startsWith_iff_suffix houtput direct, h.outputNotInside]
    simp
  · rw [← Path.startsWith_iff_suffix direct houtput, h.outputNotAround]
    simp

/-- The paths that are written to have their locations on the way to or below the output directory,
    or on the way to the catalog file. -/
theorem isDirect_of_writes (hsettled : Settled disk plan) (hstraight : Straight disk plan)
    {path : Path} (hwrites : plan.Writes path) :
    path.IsDirect ∧
      ((∃ names, path.location <:+ names ++ plan.outputDir.location) ∨
        path.location <:+ plan.catalogFile.location) := by
  have output : plan.outputDir.IsDirect := ⟨hsettled.outputAbsolute, hstraight.output⟩
  have catalog : plan.catalogFile.IsDirect := ⟨hsettled.catalogAbsolute, hstraight.catalog⟩
  rcases hwrites with ⟨names, hnames, above⟩ | above
  · obtain ⟨direct, suffix⟩ := above.isDirect (output.descend hnames)
    rw [Path.location_descend _ hnames] at suffix
    exact ⟨direct, .inl ⟨_, suffix⟩⟩
  · obtain ⟨direct, suffix⟩ := above.isDirect catalog
    exact ⟨direct, .inr suffix⟩

/-- Without `..` and links nothing at or below the source folder is written to. -/
theorem Straight.not_inside (hsettled : Settled disk plan) (hstraight : Straight disk plan)
    (hdisk : disk.WellFormed) {path : Path} (hwrites : plan.Writes path) :
    ¬ plan.sourceRoot.location <:+ path.location := by
  have direct := hsettled.isDirect_source hdisk
  have catalog : plan.catalogFile.IsDirect := ⟨hsettled.catalogAbsolute, hstraight.catalog⟩
  obtain ⟨notInside, notAround⟩ :=
    hsettled.outside hdisk ⟨hsettled.outputAbsolute, hstraight.output⟩
  intro inside
  rcases (isDirect_of_writes hsettled hstraight hwrites).2 with ⟨more, suffix⟩ | suffix
  · rcases List.suffix_or_suffix_of_suffix (inside.trans suffix) (List.suffix_append more _) with
      h | h
    · exact notInside h
    · exact notAround h
  · have := inside.trans suffix
    rw [← Path.startsWith_iff_suffix catalog direct, hsettled.catalogNotInside] at this
    simp at this

theorem Straight.linkFree (hsettled : Settled disk plan) (hstraight : Straight disk plan)
    {path : Path} (hwrites : plan.Writes path) : disk.LinkFree [] path.location := by
  intro place _ onWay node found
  rcases (isDirect_of_writes hsettled hstraight hwrites).2 with ⟨more, suffix⟩ | suffix
  · rcases List.suffix_or_suffix_of_suffix (onWay.trans suffix) (List.suffix_append more _) with
      h | h
    · exact hstraight.noLink place node (.inl h) found
    · exact hstraight.noLink place node (.inr (.inl h)) found
  · exact hstraight.noLink place node (.inr (.inr (onWay.trans suffix))) found

end Plan

/-- After a run that has been settled, the source folder is as before if and only if the paths that
    the run writes to lead, where they lead into the folder, only to what stood there before. That is
    the case if no `..` is on the paths of the output directory and of the catalog file, and no link
    on the way to them or below the output directory. -/
theorem source_same_iff {σ ε : Type} (theme : Theme) (options : CommandLine.RunOptions)
    (config : Config) (lift : Failure → ε) (confirm : Request → Session σ (Except ε Bool))
    (hconfirm : ∀ request state, (Session.exec (confirm request) state).2.disk = state.disk)
    (own : σ) (world world' : World) (plan : Plan) (hdisk : world.disk.WellFormed)
    (hsettle : ((Plan.settle theme options config).run : StateM World (Except Failure Plan)) world =
      (.ok plan, world')) :
    let after := (Session.exec (Command.carryOut lift confirm plan) (own, world')).2.disk
    (world.disk.SameBelow plan.sourceRoot.location after ↔
      ∀ path, plan.Writes path → ∀ place node, after.find .target path = .ok (place, node) →
        plan.sourceRoot.location <:+ place → world.disk.get? place = some node) ∧
    (plan.Straight world.disk → world.disk.SameBelow plan.sourceRoot.location after) := by
  intro after
  have kept := Plan.keepsOk_settle theme options config world rfl
  rw [hsettle] at kept
  have settled : plan.Settled world.disk := kept.2 plan rfl
  have same : world'.disk = world.disk := kept.1
  have start : Session.State.disk (own, world') = world.disk := same
  have grows : world.disk.Grows (fun path _ => plan.Writes path) after := by
    rw [← start]
    exact (Session.within_carryOut hconfirm lift plan (own, world') (start ▸ hdisk)).1
  refine ⟨⟨?_, ?_⟩, ?_⟩
  · intro unchanged path _ place node found inside
    rw [← unchanged place inside, Disk.get?_of_find found]
  · intro leads place inside
    by_contra changed
    obtain ⟨path, node, hwrites, found⟩ := grows.footprint changed
    exact changed (by rw [Disk.get?_of_find found, leads path hwrites place node found inside])
  · intro straight place inside
    by_contra changed
    obtain ⟨path, node, hwrites, rfl, -⟩ := grows.location_eq
      (fun path _ hwrites => ⟨(Plan.isDirect_of_writes settled straight hwrites).1,
        straight.linkFree settled hwrites⟩) changed
    exact straight.not_inside settled hdisk hwrites inside

/-- A disk with a source folder that holds one file. -/
def Disk.sample : Disk :=
  (Disk.empty.insert ["src"] (.directory .full)).insert ["a.lua", "src"]
    (.file "print(1)\n".toUTF8 .full)

theorem Disk.wellFormed_sample : Disk.sample.WellFormed := by
  have folder : (Disk.empty.insert ["src"] (.directory .full)).WellFormed :=
    Disk.wellFormed_empty.insert rfl (by decide) (by intro access h; cases h)
  exact folder.insert rfl (by decide) (by intro access h; cases h)

/-- The options of a run on the folder `/src`. -/
def CommandLine.RunOptions.sample (output catalog : String) (force : Bool) :
    CommandLine.RunOptions :=
  ⟨some ⟨"/src"⟩, false, some "T", some ⟨output⟩, some ⟨catalog⟩, none, force⟩

/-- The plan of such a run. -/
def Plan.sample (output catalog : String) : Plan :=
  ⟨"T", ⟨"/src"⟩, ⟨output⟩, ⟨catalog⟩, "en", ⟨[], []⟩⟩

/-- Settles a run on a disk. -/
def Plan.settleOn (disk : Disk) (options : CommandLine.RunOptions) :
    Except Failure Plan × World :=
  ((Plan.settle ⟨false⟩ options .default).run : StateM World (Except Failure Plan))
    (World.ofDisk disk [])

/-- The disk after a run in which every sentence is approved. -/
def Plan.diskAfter (plan : Plan) (world : World) : Disk :=
  (Session.exec (Command.carryOut id (fun _ => pure (.ok true)) plan) ((), world)).2.disk

/-- A folder is as before after a run into a new directory beside it. -/
theorem source_same_beside :
    (Plan.settleOn .sample (.sample "/out" "/lang.lua" false)).1 =
        .ok (.sample "/out" "/lang.lua") ∧
      Disk.sample.SameBelow (Plan.sample "/out" "/lang.lua").sourceRoot.location
        ((Plan.sample "/out" "/lang.lua").diskAfter
          (Plan.settleOn .sample (.sample "/out" "/lang.lua" false)).2) := by
  have settled : (Plan.settleOn .sample (.sample "/out" "/lang.lua" false)).1 =
      .ok (.sample "/out" "/lang.lua") := by
    decide +kernel
  have both : Plan.settleOn .sample (.sample "/out" "/lang.lua" false) =
      (.ok (.sample "/out" "/lang.lua"),
        (Plan.settleOn .sample (.sample "/out" "/lang.lua" false)).2) := by
    rw [← settled]
  have noLinks : ∀ item ∈ Disk.sample.nodes, item.2.kind ≠ .link := by decide +kernel
  have straight : (Plan.sample "/out" "/lang.lua").Straight .sample := by
    refine ⟨by decide +kernel, by decide +kernel, fun place node _ found isLink => ?_⟩
    exact noLinks _ (Disk.wellFormed_sample.mem_nodes_iff.mpr found) (Node.kind_eq_link.mpr isLink)
  exact ⟨settled, (source_same_iff ⟨false⟩ (.sample "/out" "/lang.lua" false) .default id
    (fun _ => pure (.ok true)) (fun _ _ => rfl) () (World.ofDisk .sample []) _ _
    Disk.wellFormed_sample both).2 straight⟩

/-- The number of bytes of a file. -/
def Node.size : Node → Nat
  | .file content _ => content.size
  | _ => 0

/-- A settled run on the disk changes something at or below the source folder. -/
def Disk.Spoils (disk : Disk) (options : CommandLine.RunOptions) : Prop :=
  ∃ plan, (Plan.settleOn disk options).1 = .ok plan ∧
    ¬ disk.SameBelow plan.sourceRoot.location (plan.diskAfter (Plan.settleOn disk options).2)

/-- The source folder is not as before if the output directory is reached through `..` from a
    directory that is not there yet, if a link in an output directory that is forced leads to a file
    of the folder, or if the catalog file is a link to a file that the folder does not hold yet. -/
theorem source_not_same :
    Disk.sample.Spoils (.sample "/new/../src/x" "/lang.lua" false) ∧
    ((Disk.sample.insert ["out"] (.directory .full)).insert ["a.lua", "out"]
      (.link "../src/a.lua")).Spoils (.sample "/out" "/lang.lua" true) ∧
    (Disk.sample.insert ["lang.lua"] (.link "src/new.lua")).Spoils
      (.sample "/out" "/lang.lua" false) := by
  refine ⟨⟨.sample "/new/../src/x" "/lang.lua", by decide +kernel, fun same => ?_⟩,
    ⟨.sample "/out" "/lang.lua", by decide +kernel, fun same => ?_⟩,
    ⟨.sample "/out" "/lang.lua", by decide +kernel, fun same => ?_⟩⟩
  · have := congrArg (Option.map Node.kind) (same ["x", "src"] (by decide +kernel))
    revert this
    decide +kernel
  · have := congrArg (Option.map Node.size) (same ["a.lua", "src"] (by decide +kernel))
    revert this
    decide +kernel
  · have := congrArg (Option.map Node.kind) (same ["new.lua", "src"] (by decide +kernel))
    revert this
    decide +kernel

end Phrasebook
