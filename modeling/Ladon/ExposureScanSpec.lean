import Ladon.DetectSpec
import Ladon.Lib.Run

/-!
What a scan of a user's files has done when it says that it is complete.

A file that was seen is done: where it is text, credentials were looked for in all of it. A
directory that was seen is on the way down or done: its files and its directories were seen. When
nothing is on the way any more, whatever can be reached from a root was seen.
-/

namespace Ladon.ExposureScan

open Ladon.Detect Ladon.Lib Ladon.Lib.Slice Ladon.Lib.Utf8 Ladon.Lib.Word

/-! ### Paths -/

namespace PathBuf

def below (root : PathBuf) (names : List Name) : PathBuf :=
  { root with components := root.components ++ names }

lemma below_join (root : PathBuf) (names : List Name) (name : Name) :
    (root.below names).join name = root.below (names ++ [name]) := by
  simp [below, join]

end PathBuf

section Paths

variable (disk : Disk) (roots : List PathBuf)

/-- The path is below a root, and neither the root nor anything on the way is a link. -/
def LinkFree (path : PathBuf) : Prop :=
  ∃ root ∈ roots, ∃ names, path = root.below names ∧
    ∀ part, part <+: names → disk.node (root.below part) ≠ some .symlink

/-- The path cannot be looked at, or there is no link on the way to it. -/
def Clear (path : PathBuf) : Prop :=
  disk.fails .symlinkMetadata path ∨ ∃ root ∈ roots, ∃ names, path = root.below names ∧
    ∀ part, part <+: names → part ≠ names → disk.node (root.below part) ≠ some .symlink

variable {disk roots} {path : PathBuf} {name : Name}

lemma LinkFree.clear (h : LinkFree disk roots path) : Clear disk roots path := by
  obtain ⟨root, hroot, names, hpath, hlinks⟩ := h
  exact .inr ⟨root, hroot, names, hpath, fun part hpart _ => hlinks part hpart⟩

lemma LinkFree.join (h : LinkFree disk roots path) : Clear disk roots (path.join name) := by
  obtain ⟨root, hroot, names, rfl, hlinks⟩ := h
  refine .inr ⟨root, hroot, names ++ [name], root.below_join names name, fun part hpart hne => ?_⟩
  exact hlinks part ((List.prefix_concat_iff.mp hpart).resolve_left hne)

end Paths

/-! ### What is done -/

section Done

variable (env : Env)

/-- Whatever the detection finds in the text, however it is limited or stopped, was reported. -/
def Reported (s : Scanner) (path : PathBuf) (text : Text) : Prop :=
  ∀ limit stopped detections incomplete,
    detect limit stopped env.patterns text = .ok (detections, incomplete) →
      ∀ d ∈ detections, ∃ finding ∈ s.report.findings, Located path text d finding

/-- Where the path is a file of text without a zero byte, the text was scanned. -/
def FileDone (s : Scanner) (path : PathBuf) : Prop :=
  ∀ content text, env.disk.node path = some (.file content) → 0 ∉ content →
    toString? content = some text → path ∈ s.scanned ∧ Reported env s path text.toList

/-- Where the entry is a file it was seen, and where it is a directory that is not ignored. -/
structure EntrySeen (s : Scanner) (directory : PathBuf) (name : Name) : Prop where
  file : ∀ content, env.disk.node (directory.join name) = some (.file content) →
    directory.join name ∈ s.seenFiles
  directory : ∀ names, env.disk.node (directory.join name) = some (.directory names) →
    ignoredDirectory name = false → directory.join name ∈ s.seenDirectories

def DirectoryDone (s : Scanner) (directory : PathBuf) : Prop :=
  ∀ names, env.disk.node directory = some (.directory names) →
    ∀ name ∈ names, EntrySeen env s directory name

/-- A scan only adds to what it has seen and reported, and never takes back that it is
incomplete. -/
structure Grows (s s' : Scanner) : Prop where
  seenFiles : s.seenFiles ⊆ s'.seenFiles
  seenDirectories : s.seenDirectories ⊆ s'.seenDirectories
  scanned : s.scanned ⊆ s'.scanned
  findings : s.report.findings ⊆ s'.report.findings
  incomplete : s'.report.incomplete = false → s.report.incomplete = false

variable {env} {s s' s'' : Scanner} {path directory : PathBuf} {name : Name}

lemma Grows.refl (s : Scanner) : Grows s s :=
  ⟨List.Subset.refl _, List.Subset.refl _, List.Subset.refl _, List.Subset.refl _, id⟩

lemma Grows.trans (h : Grows s s') (h' : Grows s' s'') : Grows s s'' :=
  ⟨List.Subset.trans h.seenFiles h'.seenFiles, List.Subset.trans h.seenDirectories h'.seenDirectories,
    List.Subset.trans h.scanned h'.scanned, List.Subset.trans h.findings h'.findings,
    h.incomplete ∘ h'.incomplete⟩

lemma FileDone.grows (h : FileDone env s path) (hgrows : Grows s s') : FileDone env s' path := by
  intro content text hnode hzero htext
  obtain ⟨hscanned, hreported⟩ := h content text hnode hzero htext
  refine ⟨hgrows.scanned hscanned, fun limit stopped detections incomplete hdetect d hd => ?_⟩
  obtain ⟨finding, hfinding, hlocated⟩ := hreported limit stopped detections incomplete hdetect d hd
  exact ⟨finding, hgrows.findings hfinding, hlocated⟩

lemma EntrySeen.grows (h : EntrySeen env s directory name) (hgrows : Grows s s') :
    EntrySeen env s' directory name :=
  ⟨fun content hnode => hgrows.seenFiles (h.file content hnode),
    fun names hnode hname => hgrows.seenDirectories (h.directory names hnode hname)⟩

lemma DirectoryDone.grows (h : DirectoryDone env s directory) (hgrows : Grows s s') :
    DirectoryDone env s' directory :=
  fun names hnode name hname => (h names hnode name hname).grows hgrows

end Done

/-! ### The invariant -/

/-- What was counted and recorded is within the limits, and no link was followed. -/
structure Within (env : Env) (roots : List PathBuf) (s : Scanner) : Prop where
  displayRoot : s.displayRoot = none
  reportRoots : s.report.roots = roots
  filesScanned : s.report.filesScanned ≤ env.limits.maxFiles
  findings : s.report.findings.length ≤ env.limits.maxFindings
  entriesSeen : s.entriesSeen ≤ env.limits.maxEntries
  totalBytes : s.totalBytes ≤ env.limits.maxTotalBytes
  total : s.totalBytes = (s.contents.map fun c => c.2.length).sum
  fileBytes : ∀ c ∈ s.contents, c.2.length ≤ env.limits.maxFileBytes
  scanned : s.report.filesScanned = s.scanned.length
  scannedOnce : s.scanned.Nodup
  readOnce : (s.contents.map Prod.fst).Nodup
  followed : ∀ path ∈ s.followed,
    env.disk.fails .symlinkMetadata path ∨ LinkFree env.disk roots path
  seenDirectories : ∀ path ∈ s.seenDirectories, LinkFree env.disk roots path
  contents : ∀ c ∈ s.contents, LinkFree env.disk roots c.1

/-- What was seen is done, or is one of the files and directories still to be done. -/
structure Settled (env : Env) (files directories : List PathBuf) (s : Scanner) : Prop where
  files : ∀ path ∈ s.seenFiles, path ∈ files ∨ FileDone env s path
  directories : ∀ path ∈ s.seenDirectories, path ∈ directories ∨ DirectoryDone env s path

structure Inv (env : Env) (roots files directories : List PathBuf) (s : Scanner) : Prop
    extends Within env roots s where
  scannedSeen : s.scanned ⊆ s.seenFiles
  contentsSeen : s.contents.map Prod.fst ⊆ s.seenFiles
  settled : s.report.incomplete = false → Settled env files directories s

/-- A part of the scan keeps the invariant, where the directories on the way down stay the same. -/
structure Step (env : Env) (roots directories : List PathBuf) (s s' : Scanner) : Prop where
  inv : Inv env roots [] directories s'
  grows : Grows s s'

section Steps

variable {env : Env} {roots files directories : List PathBuf} {s s' : Scanner} {path : PathBuf}

lemma grows_skip (s : Scanner) : Grows s s.skip :=
  ⟨List.Subset.refl _, List.Subset.refl _, List.Subset.refl _, List.Subset.refl _, id⟩

lemma grows_follow (path : PathBuf) (s : Scanner) : Grows s (s.follow path) :=
  ⟨List.Subset.refl _, List.Subset.refl _, List.Subset.refl _, List.Subset.refl _, id⟩

/-- What is settled stays so while nothing new is seen. -/
lemma Settled.grows (h : Settled env files directories s) (hgrows : Grows s s')
    (hfiles : s'.seenFiles = s.seenFiles) (hdirectories : s'.seenDirectories = s.seenDirectories) :
    Settled env files directories s' := by
  refine ⟨fun p hp => ?_, fun p hp => ?_⟩
  · rw [hfiles] at hp
    exact (h.files p hp).imp_right (·.grows hgrows)
  · rw [hdirectories] at hp
    exact (h.directories p hp).imp_right (·.grows hgrows)

lemma Inv.skip (h : Inv env roots files directories s) : Inv env roots files directories s.skip :=
  { h with settled := fun hc => (h.settled hc).grows (grows_skip s) rfl rfl }

/-- Nothing has to be done any more once the scan is incomplete. -/
lemma Inv.markIncomplete (h : Inv env roots files directories s)
    (files' directories' : List PathBuf) :
    Inv env roots files' directories' s.markIncomplete :=
  { h with settled := nofun }

/-- A file is done, and no longer one that is still to be done. -/
lemma Settled.finish (h : Settled env [path] directories s) (hdone : FileDone env s path) :
    Settled env [] directories s := by
  refine ⟨fun p hp => .inr ?_, h.directories⟩
  rcases h.files p hp with hp | hp
  · rw [List.mem_singleton.mp hp]
    exact hdone
  · exact hp

lemma Inv.finish (h : Inv env roots [path] directories s) (hdone : FileDone env s path) :
    Inv env roots [] directories s :=
  { h with settled := fun hc => (h.settled hc).finish hdone }

lemma Inv.follow (h : Inv env roots files directories s)
    (hpath : env.disk.fails .symlinkMetadata path ∨ LinkFree env.disk roots path) :
    Inv env roots files directories (s.follow path) :=
  { h with
    followed := fun p hp => by
      rcases List.mem_cons.mp hp with rfl | hp
      · exact hpath
      · exact h.followed p hp
    settled := fun hc => (h.settled hc).grows (grows_follow path s) rfl rfl }

/-! ### Files -/

lemma Inv.received (h : Inv env roots files directories s) {bytes : Bytes}
    (hunread : path ∉ s.contents.map Prod.fst) (hseen : path ∈ s.seenFiles)
    (hlink : LinkFree env.disk roots path) (hfile : bytes.length ≤ env.limits.maxFileBytes)
    (htotal : s.totalBytes + bytes.length ≤ env.limits.maxTotalBytes) :
    Inv env roots files directories (s.received path bytes) ∧ Grows s (s.received path bytes) := by
  have hgrows : Grows s (s.received path bytes) :=
    ⟨List.Subset.refl _, List.Subset.refl _, List.Subset.refl _, List.Subset.refl _, id⟩
  have hsum : saturatingAdd s.totalBytes bytes.length = s.totalBytes + bytes.length :=
    saturatingAdd_eq (htotal.trans env.limits.maxTotalBytes_le)
  refine ⟨{ h with
    totalBytes := hsum.le.trans htotal
    total := ?_
    fileBytes := List.forall_mem_cons.mpr ⟨hfile, h.fileBytes⟩
    readOnce := List.nodup_cons.mpr ⟨hunread, h.readOnce⟩
    contents := List.forall_mem_cons.mpr ⟨hlink, h.contents⟩
    contentsSeen := List.cons_subset.mpr ⟨hseen, h.contentsSeen⟩
    settled := fun hc => (h.settled hc).grows hgrows rfl rfl }, hgrows⟩
  refine hsum.trans ?_
  rw [h.total, Nat.add_comm]
  rfl

lemma Inv.seeFile (h : Inv env roots [] directories s) (path : PathBuf) :
    Inv env roots [path] directories (s.seeFile path) ∧ Grows s (s.seeFile path) := by
  have hgrows : Grows s (s.seeFile path) :=
    ⟨List.subset_cons_self _ _, List.Subset.refl _, List.Subset.refl _, List.Subset.refl _, id⟩
  refine ⟨{ h with
    scannedSeen := List.Subset.trans h.scannedSeen hgrows.seenFiles
    contentsSeen := List.Subset.trans h.contentsSeen hgrows.seenFiles
    settled := fun hc => ?_ }, hgrows⟩
  have hsettled := h.settled hc
  refine ⟨fun p hp => ?_, fun p hp => (hsettled.directories p hp).imp_right (·.grows hgrows)⟩
  rcases List.mem_cons.mp hp with rfl | hp
  · exact .inl (List.mem_singleton.mpr rfl)
  · exact .inr (((hsettled.files p hp).resolve_left List.not_mem_nil).grows hgrows)

lemma Step.refl (h : Inv env roots [] directories s) : Step env roots directories s s :=
  ⟨h, Grows.refl s⟩

lemma Step.trans {s'' : Scanner} (h : Step env roots directories s s')
    (h' : Step env roots directories s' s'') : Step env roots directories s s'' :=
  ⟨h'.inv, h.grows.trans h'.grows⟩

variable {directory : PathBuf} {walk' : PathBuf → Scanner → Except Fault Scanner}

lemma Inv.seeDirectory (h : Inv env roots [] directories s)
    (hlink : LinkFree env.disk roots directory) :
    Inv env roots [] (directory :: directories) (s.seeDirectory directory) ∧
      Grows s (s.seeDirectory directory) := by
  have hgrows : Grows s (s.seeDirectory directory) :=
    ⟨List.Subset.refl _, List.subset_cons_self _ _, List.Subset.refl _, List.Subset.refl _, id⟩
  refine ⟨{ h with
    seenDirectories := List.forall_mem_cons.mpr ⟨hlink, h.seenDirectories⟩
    settled := fun hc => ?_ }, hgrows⟩
  have hsettled := h.settled hc
  refine ⟨fun p hp => (hsettled.files p hp).imp_right (·.grows hgrows), fun p hp => ?_⟩
  rcases List.mem_cons.mp hp with rfl | hp
  · exact .inl List.mem_cons_self
  · exact (hsettled.directories p hp).imp (List.mem_cons_of_mem directory) (·.grows hgrows)

/-- Nothing of a directory is left to be done when its walk has come to its end. -/
lemma Inv.leave (h : Inv env roots [] (directory :: directories) s)
    (hdone : s.report.incomplete = false → DirectoryDone env s directory) :
    Inv env roots [] directories s := by
  refine { h with settled := fun hc => ⟨(h.settled hc).files, fun p hp => ?_⟩ }
  rcases (h.settled hc).directories p hp with hp | hp
  · rcases List.mem_cons.mp hp with rfl | hp
    · exact .inr (hdone hc)
    · exact .inl hp
  · exact .inr hp

end Steps

/-! ### The roots -/

section Roots

variable {env : Env} {roots : List PathBuf} {s : Scanner}

/-- After a pass over roots: the scan is incomplete, or all roots are what they should be. -/
structure Passed (env : Env) (roots : List PathBuf) (p : PathBuf → Scanner → Prop)
    (done : List PathBuf) (s : Scanner) : Prop where
  inv : Inv env roots [] [] s
  done : s.report.incomplete = false → ∀ root ∈ done, p root s

lemma Passed.snoc {p : PathBuf → Scanner → Prop} {done : List PathBuf} {root : PathBuf}
    {s' : Scanner} (h : Passed env roots p done s) (hstep : Step env roots [] s s')
    (hkeep : ∀ root, p root s → p root s') (hroot : s'.report.incomplete = false → p root s') :
    Passed env roots p (done ++ [root]) s' :=
  ⟨hstep.inv, fun hc => forall_mem_snoc
    (fun other hother => hkeep other (h.done (hstep.grows.incomplete hc) other hother)) (hroot hc)⟩

end Roots

/-! ### A home -/

end Ladon.ExposureScan
