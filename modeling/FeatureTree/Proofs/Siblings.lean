import FeatureTree.Proofs.Apart
import FeatureTree.Proofs.Production
import FeatureTree.Proofs.Walk
/-!
# Siblings

What a block does to a document depends on the frame it lands in. Two
blocks with different keys may change places (`assemble_swapped`); a
block whose key is not read there can be left out (`assemble_unread`),
and so can one that comes after another of its key where only the first
is read, or beside one that hides it (`assemble_shadowed`). The walk
around the blocks may be any, also one that is broken off or refused.
-/

namespace FeatureTree

/-- A block that is not refused when it stands alone. -/
def Block.Accepted (settings : Settings) (block : Block) : Prop :=
  ∃ made, assemble settings block.events = .ok made

/-- There is a child under a key. -/
def Frame.Has (f : Frame) (key : Key) : Prop :=
  ∃ child, (key, child) ∈ f.children

theorem Block.accepted_iff {settings : Settings} {block : Block} :
    block.Accepted settings ↔ block.error? = none := by
  have hevents : Body.events [block] = block.events := by simp [Body.events]
  have herror : Body.error? [block] = block.error? := Option.or_none
  simp only [Accepted, ← hevents, assemble_events_eq_ok_iff, herror, exists_and_left,
    exists_eq', and_true]

/-! ## Blocks in their place -/

section

variable {settings : Settings} {before after : List Event} {body body' : Body} {block : Block}

theorem place_reached (settings : Settings) (events : List Event) :
    (reached settings events).place = (openedBy events).head? := by
  rw [← opened_reached settings, List.head?_map]
  rfl

/-- **Blocks that are refused alike and leave alike children can stand for
one another**, whatever goes before and whatever follows. -/
theorem assemble_congr (herror : body.error? = body'.error?)
    (halike : Alike (openedBy before).head?
      ((reached settings before).innermost.children ++
        body.children (reached settings before).fallback)
      ((reached settings before).innermost.children ++
        body'.children (reached settings before).fallback)) :
    assemble settings (before ++ body.events ++ after) =
      assemble settings (before ++ body'.events ++ after) := by
  rw [assemble, assemble, List.append_assoc, List.append_assoc, Assembly.run_append,
    Assembly.run_append]
  cases hrun : (Assembly.start settings).run before with
  | error error => rfl
  | ok a =>
    obtain ⟨-, rfl⟩ := Assembly.run_eq_ok_iff.mp hrun
    simp only [Assembly.run_body, ← herror]
    cases body.error? with
    | some error => rfl
    | none =>
      rw [← place_reached settings] at halike
      exact (Assembly.apart_fileAll halike).outcome_eq [] after

/-- A block can be left out where its child is idle. -/
theorem assemble_idle (haccepted : block.Accepted settings)
    (hidle : Idle (openedBy before).head? block.key
      (reached settings before).innermost.children []) :
    assemble settings (before ++ block.events ++ after) = assemble settings (before ++ after) := by
  have herror : Body.error? [] = Body.error? [block] :=
    (Body.error?_singleton (Block.accepted_iff.mp haccepted)).symm
  have hsame : assemble settings (before ++ Body.events [] ++ after) =
      assemble settings (before ++ Body.events [block] ++ after) := by
    refine assemble_congr herror ?_
    rw [Body.children_cons]
    cases block.child? (reached settings before).fallback with
    | none => exact .refl _ _
    | some child => exact .extra hidle
  simpa [Body.events] using hsame.symm

end

/-! ## The order of siblings -/

/-- **Siblings with different keys may change places.** In any walk, two
neighbouring blocks of which at most one is refused by itself can be told
in either order, and the outcome, errors included, is the same. -/
theorem assemble_swapped (settings : Settings) (before after : List Event) {x y : Block}
    (hkey : x.key ≠ y.key) (haccepted : x.Accepted settings ∨ y.Accepted settings) :
    assemble settings (before ++ x.events ++ y.events ++ after) =
      assemble settings (before ++ y.events ++ x.events ++ after) := by
  have hevents (x y : Block) : before ++ x.events ++ y.events ++ after =
      before ++ Body.events [x, y] ++ after := by simp [Body.events]
  have herror : Body.error? [x, y] = Body.error? [y, x] := by
    simp only [Body.error?, Option.or_none]
    obtain hx | hy := haccepted
    · rw [Block.accepted_iff.mp hx, Option.none_or, Option.or_none]
    · rw [Block.accepted_iff.mp hy, Option.none_or, Option.or_none]
  rw [hevents, hevents]
  refine assemble_congr herror ?_
  simp only [Body.children, List.append_nil]
  cases x.child? (reached settings before).fallback with
  | none => simpa using Alike.refl _ _
  | some child =>
    cases y.child? (reached settings before).fallback with
    | none => exact .refl _ _
    | some child' => exact .swapped _ [] hkey

/-- A background with a step that is still open. -/
def openStep : List Event :=
  [.enter .feature, .enter .featureHeader,
    .leaf { kind := .featureLine, location := ⟨1, 1⟩, keyword := "Feature", text := "Sums" },
    .exit .featureHeader, .enter .background,
    .leaf { kind := .backgroundLine, location := ⟨2, 3⟩, keyword := "Background" }, .enter .step,
    .leaf { kind := .stepLine, location := ⟨3, 5⟩, keyword := "Given ", text := "a" }]

/-- The exits of its rules. -/
def stepExits : List Event :=
  [.exit .step, .exit .background, .exit .feature]

/-- A table of one row. -/
def oneRow : Block :=
  .scope .dataTable [.leaf { kind := .tableRow, location := ⟨4, 7⟩, spans := [⟨9, "1"⟩] }]

/-- A doc string without content. -/
def emptyDoc : Block :=
  .scope .docString [.leaf { kind := .docStringSeparator, location := ⟨5, 7⟩ }]

/-- The table and the doc string of a step come in either order. -/
theorem assemble_openStep :
    oneRow.key ≠ emptyDoc.key ∧ oneRow.Accepted {} ∧
      assemble {} (openStep ++ oneRow.events ++ emptyDoc.events ++ stepExits) =
        assemble {} (openStep ++ emptyDoc.events ++ oneRow.events ++ stepExits) := by
  have hkey : oneRow.key ≠ emptyDoc.key := by decide
  have haccepted : oneRow.Accepted {} := ⟨none, rfl⟩
  exact ⟨hkey, haccepted, assemble_swapped {} openStep stepExits hkey (.inl haccepted)⟩

/-! ## What is not read -/

/-- Whether a key is read nowhere: that of a line without content, or of a
custom rule. -/
def Key.isIgnored : Key → Bool
  | .token kind => kind.isNoise
  | .rule (.custom _) => true
  | .rule _ => false

theorem isIgnored_of_mem_readKeys (place : Option Rule) :
    ∀ key ∈ readKeys place, key.isIgnored = false := by
  rcases place with _ | rule
  · decide
  · cases rule with
    | custom name => exact List.forall_mem_nil _
    | _ => decide

/-- **A block whose key is not read where it lands can be left out**, if
it is not refused by itself. Blank lines, comments, language lines, the
end of the document and custom rules can be left out everywhere. -/
theorem assemble_unread (settings : Settings) :
    (∀ (before after : List Event) (block : Block), block.Accepted settings →
      block.key ∉ readKeys (openedBy before).head? →
      assemble settings (before ++ block.events ++ after) = assemble settings (before ++ after)) ∧
    ∀ (before after : List Event) (block : Block), block.Accepted settings →
      block.key.isIgnored = true →
      assemble settings (before ++ block.events ++ after) =
        assemble settings (before ++ after) := by
  refine ⟨fun before after block haccepted hkey => assemble_idle haccepted (.unread hkey),
    fun before after block haccepted hignored => assemble_idle haccepted (.unread ?_)⟩
  intro hread
  rw [isIgnored_of_mem_readKeys _ _ hread] at hignored
  cases hignored

/-- In a step neither the tags of something else nor a comment are
noticed. -/
theorem assemble_remarks :
    assemble {} (openStep ++ (Block.scope .tags []).events ++ stepExits) =
        assemble {} (openStep ++ stepExits) ∧
      assemble {} (openStep ++
          (Block.leaf { kind := .comment, location := ⟨4, 1⟩, text := "# b" }).events ++ stepExits) =
        assemble {} (openStep ++ stepExits) := by
  obtain ⟨hunread, hignored⟩ := assemble_unread {}
  exact ⟨hunread openStep stepExits _ ⟨none, rfl⟩ (by decide),
    hignored openStep stepExits _ ⟨none, rfl⟩ rfl⟩

/-! ## What is not read again -/

section

variable {settings : Settings} {before later after : List Event} {key cover : Key} {block : Block}

/-- What stands in the innermost frame stands under its key. -/
theorem filed_of_mem_innermost {child : Child} {events : List Event}
    (h : (key, child) ∈ (reached settings events).innermost.children) : Filed key child := by
  have hholds : (reached settings events).Holds (reached settings events).innermost := by
    rw [Assembly.innermost]
    cases hframes : (reached settings events).frames with
    | nil => exact .inl (.self _)
    | cons frame outer => exact .inr ⟨frame, hframes ▸ List.mem_cons_self, .self _⟩
  exact (filed_reached settings events).of_holds hholds _ (.self _) _ h

/-- The children of one list are those of the other and one more. -/
def Inserted (entry : Key × Child) (_ : Option Rule)
    (children children' : List (Key × Child)) : Prop :=
  ∃ earlier later, children = earlier ++ later ∧ children' = earlier ++ entry :: later

theorem grows_inserted (entry : Key × Child) : Assembly.Grows (Inserted entry) := by
  rintro _ _ _ filed ⟨earlier, later, rfl, rfl⟩
  exact ⟨earlier, later ++ [filed], by simp, by simp⟩

/-- **A child more in a frame that stays open is not noticed** if what
hides it is there when the frame is the innermost again. -/
theorem outcome_hidden {a : Assembly} {child : Child}
    (hstay : ∀ part, part <+: later → a.depth ≤ (a.deliverAll part).depth)
    (hend : (a.deliverAll later).depth = a.depth)
    (hhides : Hides (a.deliverAll later).place cover key) {hider : Child}
    (hcover : (cover, hider) ∈ (a.deliverAll later).innermost.children)
    (hfiled : Filed cover hider) :
    ((a.fileAll [(key, child)]).run (later ++ after)).map Assembly.finish =
      (a.run (later ++ after)).map Assembly.finish := by
  have hinserted : Inserted (key, child) a.place (a.innermost.children ++ [])
      (a.innermost.children ++ [(key, child)]) := ⟨_, [], rfl, rfl⟩
  have happart : Assembly.Apart (Inserted (key, child)) a (a.fileAll [(key, child)]) :=
    Assembly.apart_fileAll hinserted
  rw [Assembly.run_append, Assembly.run_append]
  obtain ⟨error, hrun, hrun'⟩ | ⟨a', b', inner, hapart, hdepth, hrun, hrun'⟩ :=
    happart.run_above (grows_inserted _) [] later hstay
  · change a.run later = _ at hrun
    change (a.fileAll _).run later = _ at hrun'
    rw [hrun, hrun']
  · change a.run later = _ at hrun
    change (a.fileAll _).run later = _ at hrun'
    obtain ⟨-, hreached⟩ := Assembly.run_eq_ok_iff.mp hrun
    -- As deep as before, so no frame is open above the one with the child.
    rw [hreached, Assembly.depth_above, hdepth] at hend
    obtain rfl : inner = [] := List.length_eq_zero_iff.mp (by omega)
    rw [hreached] at hhides hcover
    have halike : Assembly.Apart Alike a' b' := by
      refine hapart.imp fun children' hinserted => ?_
      obtain ⟨earlier, rest, hchildren, rfl⟩ := hinserted
      rw [hchildren]
      exact .extra (.hidden hhides (hchildren ▸ hcover) hfiled)
    rw [hrun, hrun']
    exact (halike.outcome_eq [] after).symm

/-- A block can be left out of a frame that holds, when it is the
innermost again, what hides it. -/
theorem assemble_hidden (haccepted : block.Accepted settings) (hreturns : Returns before later)
    (hhides : Hides (openedBy before).head? cover block.key)
    (hcover : (reached settings (before ++ later)).innermost.Has cover) :
    assemble settings (before ++ block.events ++ later ++ after) =
      assemble settings (before ++ later ++ after) := by
  obtain ⟨hider, hhider⟩ := hcover
  have hfiled := filed_of_mem_innermost hhider
  -- The depths of the assembly are those of the brackets, which `Returns` speaks of.
  have hdepth (part : List Event) : ((reached settings before).deliverAll part).depth =
      (openedBy (before ++ part)).length := by
    rw [← reached_append, depth_reached]
  have hstay : ∀ part, part <+: later →
      (reached settings before).depth ≤ ((reached settings before).deliverAll part).depth := by
    intro part hpart
    rw [hdepth, depth_reached]
    exact (hreturns.stays part hpart).length_le
  have hend : ((reached settings before).deliverAll later).depth =
      (reached settings before).depth := by
    rw [hdepth, hreturns.back, depth_reached]
  have hplace : ((reached settings before).deliverAll later).place = (openedBy before).head? := by
    rw [← reached_append, place_reached, hreturns.back]
  rw [reached_append] at hhider
  rw [List.append_assoc, List.append_assoc, List.append_assoc, assemble, assemble,
    Assembly.run_append, Assembly.run_append]
  cases hrun : (Assembly.start settings).run before with
  | error error => rfl
  | ok a =>
    obtain ⟨-, rfl⟩ := Assembly.run_eq_ok_iff.mp hrun
    simp only [Assembly.run_block, Block.accepted_iff.mp haccepted]
    cases block.child? (Assembly.deliverAll _ _).fallback with
    | none => rfl
    | some child => exact outcome_hidden hstay hend (hplace ▸ hhides) hhider hfiled

end

/-- **Where the first of a key counts, a block of that key can be left out
behind it**, and a block that is hidden by another can be left out before
and behind that one, if the frame stays open from the one to the other. -/
theorem assemble_shadowed (settings : Settings) :
    (∀ (before after : List Event) (block : Block), block.Accepted settings →
      block.key ∈ firstKeys (openedBy before).head? →
      (reached settings before).innermost.Has block.key →
      assemble settings (before ++ block.events ++ after) = assemble settings (before ++ after)) ∧
    ∀ (before later after : List Event) (cover : Key) (block : Block), block.Accepted settings →
      Returns before later → Hides (openedBy before).head? cover block.key →
      (reached settings (before ++ later)).innermost.Has cover →
      assemble settings (before ++ block.events ++ later ++ after) =
        assemble settings (before ++ later ++ after) := by
  refine ⟨fun before after block haccepted hkey hhas => ?_,
    fun before later after cover block haccepted hreturns hhides hcover =>
      assemble_hidden haccepted hreturns hhides hcover⟩
  obtain ⟨first, hfirst⟩ := hhas
  exact assemble_idle haccepted (.repeated hkey hfirst (filed_of_mem_innermost hfirst))

/-- In a step a second step line is not noticed, and no doc string before
a table. -/
theorem assemble_crowdedStep :
    assemble {} (openStep ++
          (Block.leaf { kind := .stepLine, location := ⟨4, 5⟩, text := "b" }).events ++ stepExits) =
        assemble {} (openStep ++ stepExits) ∧
      assemble {} (openStep ++ emptyDoc.events ++ oneRow.events ++ stepExits) =
        assemble {} (openStep ++ oneRow.events ++ stepExits) := by
  obtain ⟨hrepeated, hhidden⟩ := assemble_shadowed {}
  have hreturns : Returns openStep oneRow.events := by decide
  exact ⟨hrepeated openStep stepExits _ ⟨none, rfl⟩ (by decide) ⟨_, List.mem_singleton_self _⟩,
    hhidden openStep oneRow.events stepExits _ emptyDoc ⟨none, rfl⟩ hreturns .table
      ⟨_, List.mem_append_right _ (List.mem_singleton_self _)⟩⟩

end FeatureTree
