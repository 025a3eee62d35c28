import BootImage.FileStore

/-! What was written is read back, and everything else stays: writing fills the place that reading
the same path leads to, because a walk only stands in directories and no file replaces one. Main
statements: `read_of_write`, and `ChangesOnly` with what it leaves as it was. -/

namespace BootImage

theorem Node.content_eq_ok {node : Option Node} {bytes : Bytes} :
    content node = .ok bytes ↔ node = some (.file bytes) := by
  rcases node with _ | _ | _ | _ <;> simp [content]

namespace FileStore

theorem node?_put (store : FileStore) (place : Place) (node : Node)
    (h : ¬(place = [] ∨ place = root)) : (store.put place node).node? place = some node := by
  simp [node?, put, h]

theorem lookup_filter_ne {place q : Place} (h : q ≠ place) (nodes : List (Place × Node)) :
    (nodes.filter fun entry => entry.1 ≠ place).lookup q = nodes.lookup q := by
  induction nodes with
  | nil => rfl
  | cons entry rest ih =>
    by_cases he : entry.1 = place
    · have hq : (q == entry.1) = false := beq_eq_false_iff_ne.mpr fun e => h (e.trans he)
      rw [List.filter_cons_of_neg (by simpa using he), ih, List.lookup_cons, hq]
    · rw [List.filter_cons_of_pos (by simpa using he), List.lookup_cons, List.lookup_cons, ih]

theorem node?_put_of_ne (store : FileStore) {place q : Place} (node : Node) (h : q ≠ place) :
    (store.put place node).node? q = store.node? q := by
  simp only [node?, put, List.lookup_cons, beq_eq_false_iff_ne.mpr h, lookup_filter_ne h]

theorem walk_append (store : FileStore) (place : Place) (xs ys : List String) :
    store.walk place (xs ++ ys) =
      match store.walk place xs with
      | .ok q => store.walk q ys
      | .error fault => .error fault := by
  induction xs generalizing place with
  | nil => simp [walk]
  | cons name rest ih =>
    rw [List.cons_append, walk, walk]
    cases store.node? place with
    | none => rfl
    | some node =>
      cases node with
      | directory =>
        cases stepInto place name with
        | error fault => rfl
        | ok next => exact ih next
      | file bytes => rfl
      | locked => rfl

/-- The same directories stand in both stores. Between them, the files may differ. -/
def SameDirectories (a b : FileStore) : Prop :=
  ∀ place, a.node? place = some .directory ↔ b.node? place = some .directory

variable {a b : FileStore} {place p q : Place} {path : String} {names : List String}

theorem SameDirectories.symm (h : SameDirectories a b) : SameDirectories b a :=
  fun place => (h place).symm

theorem SameDirectories.trans {c : FileStore} (hab : SameDirectories a b)
    (hbc : SameDirectories b c) : SameDirectories a c :=
  fun place => (hab place).trans (hbc place)

theorem sameDirectories_put {node : Node} (h : a.node? place ≠ some .directory)
    (hnode : node ≠ .directory) : SameDirectories a (a.put place node) := by
  intro q
  by_cases hq : q = place
  · subst hq
    have htop : ¬(q = [] ∨ q = root) := fun top => h (by rw [node?, if_pos top])
    rw [node?_put _ _ _ htop, Option.some_inj]
    exact iff_of_false h hnode
  · rw [node?_put_of_ne a node hq]

/-- A walk only stands in directories, so no file is in its way. -/
theorem SameDirectories.walk (h : SameDirectories a b) (hw : a.walk p names = .ok q) :
    b.walk p names = .ok q := by
  induction names generalizing p with
  | nil => exact hw
  | cons name rest ih =>
    rw [FileStore.walk] at hw ⊢
    split at hw
    · cases hw
    · next hp =>
      rw [(h p).mp hp]
      cases hs : stepInto p name with
      | error fault => rw [hs] at hw; cases hw
      | ok next => rw [hs] at hw; exact ih hw
    · cases hw

theorem SameDirectories.resolve (h : SameDirectories a b) (hr : a.resolve path = .ok place) :
    b.resolve path = .ok place := by
  unfold FileStore.resolve at hr ⊢
  split at hr
  · cases hr
  · next hpath =>
    split at hr
    · cases hr
    · next hlimit =>
      rw [if_neg hpath, if_neg hlimit]
      exact h.walk hr

theorem SameDirectories.directoryOf (h : SameDirectories a b)
    (hd : a.directoryOf p names = .ok q) : b.directoryOf p names = .ok q := by
  unfold FileStore.directoryOf at hd ⊢
  split at hd
  · cases hd
  · next parent hwalk =>
    rw [h.walk hwalk]
    dsimp only
    split at hd
    · cases hd
    · next hparent =>
      rw [(h parent).mp hparent]
      exact hd
    · cases hd

theorem trimmed_of_isFileName {names : List String} (h : isFileName names = true) :
    trimmed names = names := by
  rcases List.eq_nil_or_concat names with rfl | ⟨front, last, rfl⟩
  · rfl
  · simp only [isFileName] at h
    have hlast : last ≠ "" := by
      intro e
      simp [e] at h
    simp [trimmed, hlast]

theorem walk_of_directoryOf {store : FileStore} {start parent place : Place} {names : List String}
    (hname : isFileName names = true) (hparent : store.directoryOf start names = .ok parent)
    (hstep : stepInto parent (names.getLastD "") = .ok place) :
    store.walk start names = .ok place := by
  rcases List.eq_nil_or_concat names with rfl | ⟨front, last, rfl⟩
  · cases hname
  · unfold directoryOf at hparent
    split at hparent
    · cases hparent
    · next q hwalk =>
      split at hparent
      · cases hparent
      · next hq =>
        cases hparent
        rw [List.concat_eq_append] at hwalk hstep ⊢
        rw [List.dropLast_concat] at hwalk
        rw [List.getLastD_concat] at hstep
        rw [walk_append, hwalk]
        simp only [walk, hq, hstep]
      · cases hparent

/-- A path to write to: it ends in a name, which stands in a directory and leads to a place where
a file stands or nothing does. -/
structure WritesTo (store : FileStore) (path : String) (place : Place) : Prop where
  nonempty : path ≠ ""
  short : ¬pathLimit < path.utf8ByteSize
  named : isFileName (FileName.components path) = true
  placed : ∃ parent, store.directoryOf (start path) (FileName.components path) = .ok parent ∧
    stepInto parent ((FileName.components path).getLastD "") = .ok place
  noDirectory : store.node? place ≠ some .directory
  unlocked : store.node? place ≠ some .locked

theorem writable_eq_ok {store : FileStore} :
    store.writable path = .ok place ↔ store.WritesTo path place := by
  rw [writable]
  by_cases hpath : path = ""
  · rw [if_pos hpath]
    exact iff_of_false nofun fun h => h.nonempty hpath
  rw [if_neg hpath]
  by_cases hlimit : pathLimit < path.utf8ByteSize
  · rw [if_pos hlimit]
    exact iff_of_false nofun fun h => h.short hlimit
  rw [if_neg hlimit]
  constructor
  · intro h
    cases hparent : store.directoryOf (start path) (trimmed (FileName.components path)) with
    | error fault =>
      rw [hparent] at h
      cases h
    | ok parent =>
      rw [hparent] at h
      dsimp only at h
      cases hfile : isFileName (FileName.components path) with
      | false =>
        rw [hfile] at h
        cases h
      | true =>
        rw [trimmed_of_isFileName hfile] at hparent
        rw [hfile] at h
        simp only [Bool.not_true, Bool.false_eq_true, if_false] at h
        split at h
        · cases h
        · next target hstep =>
          split at h
          · cases h
          · cases h
          · next hd hl =>
            cases h
            exact ⟨hpath, hlimit, hfile, ⟨parent, hparent, hstep⟩, hd, hl⟩
  · rintro ⟨-, -, hfile, ⟨parent, hparent, hstep⟩, hd, hl⟩
    rw [trimmed_of_isFileName hfile, hparent]
    simp only [hfile, hstep, Bool.not_true, Bool.false_eq_true, if_false]

theorem resolve_of_writable {store : FileStore} (h : store.writable path = .ok place) :
    store.resolve path = .ok place ∧ store.node? place ≠ some .directory := by
  obtain ⟨hpath, hlimit, hfile, ⟨parent, hparent, hstep⟩, hd, -⟩ := writable_eq_ok.1 h
  refine ⟨?_, hd⟩
  rw [resolve, if_neg hpath, if_neg hlimit]
  exact walk_of_directoryOf hfile hparent hstep

theorem SameDirectories.writable (h : SameDirectories a b) (hw : a.writable path = .ok place)
    (hlock : b.node? place ≠ some .locked) : b.writable path = .ok place := by
  obtain ⟨hpath, hlimit, hfile, ⟨parent, hparent, hstep⟩, hd, -⟩ := writable_eq_ok.1 hw
  exact writable_eq_ok.2 ⟨hpath, hlimit, hfile, ⟨parent, h.directoryOf hparent, hstep⟩,
    fun hdirectory => hd ((h place).mpr hdirectory), hlock⟩

theorem target_eq_ok {store : FileStore} :
    store.target path = .ok place ↔ hasNul path = false ∧ store.writable path = .ok place := by
  rw [target]
  cases hasNul path with
  | true => simp
  | false => cases store.writable path <;> simp

theorem resolve_of_target {store : FileStore} (h : store.target path = .ok place) :
    store.resolve path = .ok place ∧ store.node? place ≠ some .directory :=
  resolve_of_writable (target_eq_ok.1 h).2

/-- All bytes fit into the file that the path leads to. -/
def HasRoom (store : FileStore) (path : String) (bytes : Bytes) : Prop :=
  ∀ place, store.resolve path = .ok place → store.exceeded? place bytes = none

theorem exceeded?_eq_none {store : FileStore} {bytes : Bytes} :
    store.exceeded? place bytes = none ↔
      ∀ limit, store.limits.lookup place = some limit → bytes.length ≤ limit.room := by
  rw [exceeded?, Option.filter_eq_none_iff]
  refine forall_congr' fun limit => imp_congr_right fun _ => ?_
  rw [decide_eq_true_eq, Nat.not_lt]

theorem exceeded?_eq_some {store : FileStore} {bytes : Bytes} {limit : Limit}
    (h : store.exceeded? place bytes = some limit) : limit.room < bytes.length := by
  simpa using (Option.filter_eq_some_iff.mp h).2

theorem hasRoom_of_unlimited {store : FileStore} {bytes : Bytes} (h : store.limits = []) :
    store.HasRoom path bytes := by
  intro place _
  simp [exceeded?, h]

theorem hasRoom_nil (store : FileStore) (path : String) : store.HasRoom path [] :=
  fun _ _ => exceeded?_eq_none.2 fun _ _ => Nat.zero_le _

theorem write_eq_ok {store after : FileStore} {bytes : Bytes} :
    store.write path bytes = .ok after ↔
      ∃ place, store.target path = .ok place ∧ store.exceeded? place bytes = none ∧
        after = store.put place (.file bytes) := by
  rw [write]
  cases store.target path with
  | error cause =>
    constructor
    · intro h
      cases h
    · rintro ⟨_, htarget, -⟩
      cases htarget
  | ok place =>
    dsimp only
    cases hroom : store.exceeded? place bytes with
    | none =>
      constructor
      · intro h
        cases h
        exact ⟨place, rfl, hroom, rfl⟩
      · rintro ⟨other, htarget, -, rfl⟩
        cases htarget
        rfl
    | some limit =>
      constructor
      · intro h
        cases h
      · rintro ⟨other, htarget, hnone, -⟩
        cases htarget
        cases hroom.symm.trans hnone

theorem write_of_opens {store : FileStore} {bytes : Bytes}
    (h : ∃ place, store.target path = .ok place) (hroom : store.HasRoom path bytes) :
    ∃ after, store.write path bytes = .ok after := by
  obtain ⟨place, htarget⟩ := h
  exact ⟨_, write_eq_ok.2 ⟨place, htarget, hroom place (resolve_of_target htarget).1, rfl⟩⟩

/-- Apart from their room, whether bytes can be written does not depend on them. -/
theorem write_of_write {store after : FileStore} {bytes others : Bytes}
    (h : store.write path bytes = .ok after) (hroom : store.HasRoom path others) :
    ∃ after, store.write path others = .ok after := by
  obtain ⟨place, htarget, -⟩ := write_eq_ok.1 h
  exact write_of_opens ⟨place, htarget⟩ hroom

theorem opens_iff {store : FileStore} :
    (∃ emptied, store.write path [] = .ok emptied) ↔ ∃ place, store.target path = .ok place := by
  constructor
  · rintro ⟨_, hempty⟩
    obtain ⟨place, htarget, -⟩ := write_eq_ok.1 hempty
    exact ⟨place, htarget⟩
  · exact fun hopens => write_of_opens hopens (hasRoom_nil store path)

theorem resolve_of_write {store after : FileStore} {bytes : Bytes}
    (h : store.write path bytes = .ok after) : ∃ place, store.resolve path = .ok place := by
  obtain ⟨place, htarget, -⟩ := write_eq_ok.1 h
  exact ⟨place, (resolve_of_target htarget).1⟩

theorem afterWrite_of_write {store after : FileStore} {bytes : Bytes}
    (h : store.write path bytes = .ok after) : store.afterWrite path bytes = after := by
  obtain ⟨place, htarget, hroom, rfl⟩ := write_eq_ok.1 h
  rw [afterWrite, htarget]
  dsimp only
  rw [hroom]

theorem content_eq_ok {store : FileStore} {bytes : Bytes} :
    store.content path = .ok bytes ↔
      ∃ place, store.resolve path = .ok place ∧ store.node? place = some (.file bytes) := by
  rw [content]
  constructor
  · intro h
    cases hresolve : store.resolve path with
    | error fault =>
      rw [hresolve] at h
      cases h
    | ok place =>
      rw [hresolve] at h
      exact ⟨place, rfl, Node.content_eq_ok.1 h⟩
  · rintro ⟨place, hresolve, hnode⟩
    simp only [hresolve, hnode, Node.content]

theorem read_eq_ok {store : FileStore} {bytes : Bytes} :
    store.read path = .ok bytes ↔
      hasNul path = false ∧ ∃ place, store.resolve path = .ok place ∧
        store.node? place = some (.file bytes) := by
  rw [read, ← content_eq_ok]
  cases hasNul path with
  | true => simp
  | false => cases store.content path <;> simp

theorem has_of_read {store : FileStore} {bytes : Bytes} (h : store.read path = .ok bytes) :
    store.has path = true := by
  obtain ⟨hnul, place, hresolve, hnode⟩ := read_eq_ok.1 h
  simp [has, hresolve, hnode, hnul]

/-- Whatever happened between the two stores, it happened to files that these paths lead to. -/
structure ChangesOnly (before : FileStore) (paths : List String) (after : FileStore) : Prop where
  directories : SameDirectories before after
  strays : after.strays = before.strays
  elsewhere : ∀ place, (∀ path ∈ paths, before.resolve path ≠ .ok place) →
    after.node? place = before.node? place

theorem changesOnly_refl (store : FileStore) (paths : List String) :
    store.ChangesOnly paths store :=
  ⟨fun _ => Iff.rfl, rfl, fun _ _ => rfl⟩

/-- The file at the path has this content now, and nothing else is different. -/
structure Rewrites (before : FileStore) (path : String) (content : Bytes) (after : FileStore) :
    Prop where
  content : after.read path = .ok content
  others : before.ChangesOnly [path] after

theorem rewrites_put {store : FileStore} (h : store.target path = .ok place) (content : Bytes) :
    store.Rewrites path content (store.put place (.file content)) := by
  obtain ⟨hresolve, hd⟩ := resolve_of_target h
  have hsame : SameDirectories store (store.put place (.file content)) :=
    sameDirectories_put hd (by simp)
  have htop : ¬(place = [] ∨ place = root) := by
    intro top
    exact hd (by rw [node?, if_pos top])
  constructor
  · exact read_eq_ok.2 ⟨(target_eq_ok.1 h).1, place, hsame.resolve hresolve,
      node?_put store place (.file content) htop⟩
  · refine ⟨hsame, rfl, fun q hq => node?_put_of_ne store _ ?_⟩
    rintro rfl
    exact hq path List.mem_cons_self hresolve

theorem rewrites_of_write {store after : FileStore} {bytes : Bytes}
    (h : store.write path bytes = .ok after) : store.Rewrites path bytes after := by
  obtain ⟨place, htarget, -, rfl⟩ := write_eq_ok.1 h
  exact rewrites_put htarget bytes

theorem read_of_write {store after : FileStore} {bytes : Bytes}
    (h : store.write path bytes = .ok after) : after.read path = .ok bytes :=
  (rewrites_of_write h).content

theorem changesOnly_of_write {store after : FileStore} {bytes : Bytes}
    (h : store.write path bytes = .ok after) : store.ChangesOnly [path] after :=
  (rewrites_of_write h).others

structure CutFrom (part bytes : Bytes) : Prop where
  begins : part <+: bytes
  shorter : part.length < bytes.length

/-- A write fails because the file is not opened, and nothing changes; or because there is no room
for all the bytes, and the first of them are in the file. -/
theorem afterWrite_of_write_error {store : FileStore} {bytes : Bytes} {cause : FileError}
    (h : store.write path bytes = .error cause) :
    ((∀ emptied, store.write path [] ≠ .ok emptied) ∧ store.afterWrite path bytes = store) ∨
    ((∃ emptied, store.write path [] = .ok emptied) ∧
      ∃ part, CutFrom part bytes ∧ store.Rewrites path part (store.afterWrite path bytes)) := by
  rw [write] at h
  rw [afterWrite, ← not_exists, opens_iff]
  cases htarget : store.target path with
  | error fault => simp
  | ok place =>
    right
    rw [htarget] at h
    dsimp only at h ⊢
    cases hlimit : store.exceeded? place bytes with
    | none =>
      rw [hlimit] at h
      cases h
    | some limit =>
      have hroom := exceeded?_eq_some hlimit
      refine ⟨⟨place, rfl⟩, bytes.take limit.room, ⟨List.take_prefix _ _, ?_⟩,
        rewrites_put htarget _⟩
      rw [List.length_take]
      omega

namespace ChangesOnly

variable {paths : List String} {other : String} {bytes : Bytes}

theorem resolve_iff (h : a.ChangesOnly paths b) :
    b.resolve path = .ok place ↔ a.resolve path = .ok place :=
  ⟨h.directories.symm.resolve, h.directories.resolve⟩

theorem trans {c : FileStore} {more : List String} (hab : a.ChangesOnly paths b)
    (hbc : b.ChangesOnly more c) : a.ChangesOnly (paths ++ more) c := by
  refine ⟨hab.directories.trans hbc.directories, hbc.strays.trans hab.strays,
    fun place hplace => ?_⟩
  rw [hbc.elsewhere, hab.elsewhere]
  · exact fun path hmem => hplace path (List.mem_append_left more hmem)
  · intro path hmem hresolve
    exact hplace path (List.mem_append_right paths hmem) (hab.resolve_iff.mp hresolve)

theorem resolve_ne (h : a.ChangesOnly paths b) (hresolve : a.resolve path = .ok place)
    (hne : a.resolve path ≠ a.resolve other) : b.resolve path ≠ b.resolve other := by
  intro hsame
  rw [h.resolve_iff.mpr hresolve] at hsame
  exact hne (hresolve.trans (h.resolve_iff.mp hsame.symm).symm)

theorem node?_eq (h : a.ChangesOnly paths b) (hresolve : a.resolve path = .ok place)
    (hne : ∀ other ∈ paths, a.resolve path ≠ a.resolve other) : b.node? place = a.node? place :=
  h.elsewhere place fun other hmem hother =>
    hne other hmem (hresolve.trans hother.symm)

theorem read (h : a.ChangesOnly paths b) (hread : a.read path = .ok bytes)
    (hne : ∀ other ∈ paths, a.resolve path ≠ a.resolve other) : b.read path = .ok bytes := by
  obtain ⟨hnul, place, hresolve, hnode⟩ := read_eq_ok.1 hread
  refine read_eq_ok.2 ⟨hnul, place, h.resolve_iff.mpr hresolve, ?_⟩
  rw [h.node?_eq hresolve hne, hnode]

theorem target (h : a.ChangesOnly paths b) (ht : a.target path = .ok place)
    (hne : ∀ other ∈ paths, a.resolve path ≠ a.resolve other) : b.target path = .ok place := by
  obtain ⟨hnul, hw⟩ := target_eq_ok.1 ht
  obtain ⟨hresolve, -⟩ := resolve_of_writable hw
  refine target_eq_ok.2 ⟨hnul, h.directories.writable hw ?_⟩
  rw [h.node?_eq hresolve hne]
  exact (writable_eq_ok.1 hw).unlocked

theorem encodes (h : a.ChangesOnly paths b) (text : String) : b.encodes text = a.encodes text := by
  rw [FileStore.encodes, FileStore.encodes, h.strays]

end ChangesOnly

/-- An attempt to write leaves a file alone that was written before, unless it writes more there. -/
theorem read_afterWrite {store saved : FileStore} {path other : String} {bytes others : Bytes}
    {cause : FileError} (h : store.write path bytes = .ok saved)
    (hfails : saved.write other others = .error cause) (hle : others.length ≤ bytes.length) :
    (saved.afterWrite other others).read path = .ok bytes := by
  obtain ⟨place, htarget, hroom, rfl⟩ := write_eq_ok.1 h
  rcases afterWrite_of_write_error hfails with ⟨_, hsame⟩ | ⟨⟨_, hopen⟩, part, _, hpart⟩
  · rw [hsame]
    exact read_of_write h
  · apply hpart.others.read (read_of_write h)
    simp only [List.mem_singleton, forall_eq]
    intro hresolve
    have hplace := (rewrites_of_write h).others.resolve_iff.mpr (resolve_of_target htarget).1
    have hfits : (store.put place (.file bytes)).HasRoom other others := by
      intro q hq
      cases hplace.symm.trans (hresolve.trans hq)
      exact exceeded?_eq_none.2 fun limit hlimit =>
        Nat.le_trans hle (exceeded?_eq_none.1 hroom limit hlimit)
    obtain ⟨_, hwrite⟩ := write_of_write hopen hfits
    cases hwrite.symm.trans hfails

end FileStore

end BootImage
