import BootImage.FileStore.Lemmas
import BootImage.Proofs.Image.Comments
import BootImage.Proofs.Image.History
import BootImage.Proofs.Listing.Encoding

/-! Saves that fail. A path that cannot be opened is left as it is. But the file is emptied before
the image is asked for its output, and written before all of the output is known to fit. So a save
leaves an empty file where nothing has been rendered or the text cannot be encoded, and the
beginning of the output where there is no room for the rest, whatever was there. Only a package can
have a text that cannot be encoded, by a name in its header. -/

namespace BootImage

/-- Why an output is not in its file as a whole, and what of it is. -/
inductive Output.CutShort (output : Output) (files : FileStore) (path : String) :
    SaveError → Bytes → Prop where
  | unencodable : output.bytes? files = none → CutShort output files path .unencodable []
  | noRoom {bytes part : Bytes} {cause : FileError} : output.bytes? files = some bytes →
    files.write path bytes = .error cause → FileStore.CutFrom part bytes →
    CutShort output files path (.file cause) part

/-- The text can be encoded, and the file takes all of it. -/
structure FileStore.TakesText (files : FileStore) (path text : String) (after : FileStore) :
    Prop where
  encodes : files.encodes text = true
  written : files.write path (Bytes.ofText text) = .ok after

namespace Image

variable {image : Image} {files saved after : FileStore} {path : String} {output : Output}

theorem encodes_shownName :
    files.encodes image.shownName = true ↔
      ∀ name ∈ image.project.toList ++ image.source.toList, files.encodes name = true := by
  simp only [FileStore.encodes_eq_true]
  exact forall_mem_shownName_iff
    (FileStore.encodes_eq_true.mp (FileStore.encodes_of_ascii (by decide)))

theorem bytes?_eq_none_iff {format : Format} (h : image.render format = some output) :
    output.bytes? files = none ↔
      (format = .appVhd ∨ format = .bldVhd) ∧
        ∃ name ∈ image.project.toList ++ image.source.toList, files.encodes name = false := by
  have hname : (∃ name ∈ image.project.toList ++ image.source.toList,
      files.encodes name = false) ↔ files.encodes image.shownName = false := by
    rw [← Bool.not_eq_true, encodes_shownName]
    simp only [not_forall, Bool.not_eq_true, exists_prop]
  rw [hname]
  cases format with
  | appBin =>
    rw [render] at h
    obtain ⟨_, _, rfl⟩ := Option.map_eq_some_iff.mp h
    simp [Output.bytes?]
  | appVhd =>
    cases h
    simp [Output.bytes?, Listing.encodes_vhdlApplication, shownName]
  | bldVhd =>
    cases h
    simp [Output.bytes?, Listing.encodes_vhdlBootloader, shownName]
  | rawBin =>
    cases h
    simp [Output.bytes?]
  | rawHex | rawCoe | rawMem | rawMif =>
    cases h
    simp [Output.bytes?, Listing.encodes_hex, Listing.encodes_coe, Listing.encodes_mem,
      Listing.encodes_mif]

theorem save_eq_ok (h : image.output = some output) :
    image.save files path = (.ok (), saved) ↔
      ∃ bytes, output.bytes? files = some bytes ∧ files.write path bytes = .ok saved := by
  rw [save, h]
  cases hempty : files.write path [] with
  | error cause =>
    refine iff_of_false (fun hsave => by cases hsave) ?_
    rintro ⟨bytes, _, hwrite⟩
    obtain ⟨emptied, hemptied⟩ := FileStore.write_of_write hwrite (files.hasRoom_nil path)
    rw [hempty] at hemptied
    cases hemptied
  | ok emptied =>
    dsimp only
    cases output.bytes? files with
    | none => simp
    | some bytes =>
      dsimp only
      cases hwrite : files.write path bytes <;> simp [hwrite]

theorem save_text_eq_ok {text : String} (h : image.output = some (.text text)) :
    image.save files path = (.ok (), saved) ↔ files.TakesText path text saved := by
  rw [save_eq_ok h, Output.bytes?]
  constructor
  · rintro ⟨bytes, hbytes, hwrite⟩
    split at hbytes
    · next hencodes =>
      cases hbytes
      exact ⟨hencodes, hwrite⟩
    · cases hbytes
  · rintro ⟨hencodes, hwrite⟩
    exact ⟨_, if_pos hencodes, hwrite⟩

theorem save_of_unopened {fault : FileError} (h : files.write path [] = .error fault) :
    image.save files path = (.error (.file fault), files) := by
  rw [save, h]

theorem save_of_no_output (h : image.output = none) (hopen : files.write path [] = .ok after) :
    image.save files path = (.error .nothingToSave, after) := by
  rw [save, hopen, h]

theorem save_of_opened (h : image.output = some output)
    (hopen : ∃ emptied, files.write path [] = .ok emptied) :
    (∃ bytes saved, output.bytes? files = some bytes ∧ files.write path bytes = .ok saved ∧
      image.save files path = (.ok (), saved)) ∨
    ∃ cause part after, output.CutShort files path cause part ∧ files.Rewrites path part after ∧
      image.save files path = (.error cause, after) := by
  obtain ⟨emptied, hempty⟩ := hopen
  rw [save, hempty, h]
  dsimp only
  cases hbytes : output.bytes? files with
  | none =>
    right
    exact ⟨.unencodable, [], emptied, .unencodable hbytes, FileStore.rewrites_of_write hempty, rfl⟩
  | some bytes =>
    dsimp only
    cases hwrite : files.write path bytes with
    | ok saved => exact Or.inl ⟨bytes, saved, rfl, hwrite, rfl⟩
    | error cause =>
      right
      rcases FileStore.afterWrite_of_write_error hwrite with ⟨hclosed, _⟩ | ⟨_, part, hcut, hpart⟩
      · exact absurd hempty (hclosed emptied)
      · exact ⟨.file cause, part, _, .noRoom hbytes hwrite hcut, hpart, rfl⟩

end Image

/-- At the path, the same can be read as before, and nothing stands there that did not. -/
structure FileStore.Spares (before : FileStore) (path : String) (after : FileStore) : Prop where
  content : after.read path = before.read path
  existence : after.has path = before.has path

theorem FileStore.spares_refl (files : FileStore) (path : String) : files.Spares path files :=
  ⟨rfl, rfl⟩

theorem FileStore.Rewrites.spares_iff {before after : FileStore} {path : String} {content : Bytes}
    (h : before.Rewrites path content after) :
    before.Spares path after ↔ before.read path = .ok content := by
  constructor
  · intro hspares
    rw [← hspares.content, h.content]
  · intro hsame
    refine ⟨h.content.trans hsame.symm, ?_⟩
    rw [FileStore.has_of_read h.content, FileStore.has_of_read hsame]

namespace Session

variable {s : Session} {reply : ProgramReply} {path : String} {past : List Entry}

theorem Entry.Renders.output {e : Entry} (h : e.Renders) :
    ∃ output, e.after.image.output = some output := by
  obtain ⟨hsucceeds, operation, signer, fixed, hstep⟩ := h
  obtain ⟨_, output, _, houtput, _⟩ :=
    e.changes.rendered operation signer fixed hstep hsucceeds
  exact ⟨output, houtput⟩

theorem History.output_eq_none_iff {project : Option String} {built : DateTime}
    {files : FileStore} (h : History ⟨{ project, built }, files⟩ past s) :
    s.image.output = none ↔ ∀ e ∈ past, ¬ e.Renders := by
  constructor
  · intro hnone
    rcases exists_isLast Entry.Renders past with hnever | ⟨e, later, hlast⟩
    · exact hnever
    · obtain ⟨earlier, rfl⟩ := hlast.split
      obtain ⟨output, houtput⟩ := hlast.here.output
      have hpart := h.part_eq Entry.keeps_output hlast.never_later
      rw [hnone, houtput] at hpart
      cases hpart
  · intro hnever
    exact h.part_eq_start Entry.keeps_output hnever

/-- What a save that opened its file leaves in it when it fails, and why it fails. -/
structure FailsOpened (s : Session) (past : List Entry) (path : String) (next : Session × Answer)
    (cause : SaveError) (rest : Bytes) : Prop where
  told : next.2.outcome = .error (.save cause)
  written : s.files.Rewrites path rest next.1.files
  reason : (∀ e ∈ past, ¬ e.Renders) ∧ cause = .nothingToSave ∧ rest = [] ∨
    (∃ e ∈ past, e.Renders) ∧
      ∃ output, s.image.output = some output ∧ output.CutShort s.files path cause rest

theorem next_save_fails {project : Option String} {built : DateTime} {files : FileStore}
    (h : History ⟨{ project, built }, files⟩ past s)
    (hopen : ∃ emptied, s.files.write path [] = .ok emptied)
    (hfails : ¬ (s.next reply (.save path)).2.Succeeds) :
    ∃ cause rest, FailsOpened s past path (s.next reply (.save path)) cause rest := by
  rw [next_save] at hfails ⊢
  cases houtput : s.image.output with
  | none =>
    obtain ⟨emptied, hempty⟩ := hopen
    rw [Image.save_of_no_output houtput hempty]
    exact ⟨.nothingToSave, [], rfl, FileStore.rewrites_of_write hempty,
      Or.inl ⟨h.output_eq_none_iff.mp houtput, rfl, rfl⟩⟩
  | some output =>
    have hrendered : ∃ e ∈ past, e.Renders := by
      by_contra hnever
      have hnone := h.output_eq_none_iff.mpr fun e he hrenders => hnever ⟨e, he, hrenders⟩
      rw [houtput] at hnone
      cases hnone
    rcases Image.save_of_opened houtput hopen with
      ⟨_, _, _, _, hsaved⟩ | ⟨cause, part, after, hcut, hpart, hsave⟩
    · rw [hsaved] at hfails
      exact absurd ⟨_, rfl⟩ hfails
    · rw [hsave]
      exact ⟨cause, part, rfl, hpart, Or.inr ⟨hrendered, output, houtput, hcut⟩⟩

/-- A failed save keeps the image, and everything where the path cannot be opened. Else it leaves an
empty file or the beginning of the output, and spares the path only if the same stood there. -/
theorem failed_save_spares_iff {project : Option String} {built : DateTime} {files : FileStore}
    (h : History ⟨{ project, built }, files⟩ past s)
    (hfails : ¬ (s.next reply (.save path)).2.Succeeds) :
    (s.next reply (.save path)).1.image = s.image ∧
    ((∀ emptied, s.files.write path [] ≠ .ok emptied) ∧ (s.next reply (.save path)).1 = s ∧
        s.files.Spares path (s.next reply (.save path)).1.files ∨
      (∃ emptied, s.files.write path [] = .ok emptied) ∧
        ∃ cause rest, FailsOpened s past path (s.next reply (.save path)) cause rest ∧
          (s.files.Spares path (s.next reply (.save path)).1.files ↔
            s.files.read path = .ok rest)) := by
  have himage : (s.next reply (.save path)).1.image = s.image :=
    (next_effect s reply (.save path)).changesBySuccess.failure hfails
  refine ⟨himage, ?_⟩
  cases hempty : s.files.write path [] with
  | error fault =>
    rw [next_save, Image.save_of_unopened hempty]
    exact Or.inl ⟨by simp, rfl, s.files.spares_refl path⟩
  | ok emptied =>
    obtain ⟨cause, rest, hrest⟩ := next_save_fails h ⟨emptied, hempty⟩ hfails
    exact Or.inr ⟨⟨emptied, rfl⟩, cause, rest, hrest, hrest.written.spares_iff⟩

def firstRendering : Entry := ⟨firstLoad.after, .absent, .create "raw_bin" none none⟩

/-- The session after its first rendering, when there is room for two bytes of the second file. -/
def crowded : Session :=
  { firstRendering.after with
    files := { twoExecutables.files with
      limits := [(["b.bin"], ⟨2, ⟨28, "No space left on device", none⟩⟩)] } }

/-- The second executable is replaced by half of the first. -/
theorem crowded_save_cuts_file :
    History twoExecutables [firstRendering, firstLoad] crowded ∧
    ¬ (crowded.next .absent (.save "b.bin")).2.Succeeds ∧
    crowded.files.read "b.bin" = .ok [2, 0, 0, 0] ∧
    ∃ cause, FailsOpened crowded [firstRendering, firstLoad] "b.bin"
        (crowded.next .absent (.save "b.bin")) cause [1, 0] ∧
      ¬ crowded.files.Spares "b.bin" (crowded.next .absent (.save "b.bin")).1.files := by
  have hhistory : History twoExecutables [firstRendering, firstLoad] crowded :=
    .change _ (.step _ _ (.step _ _ .new))
  have herror : (crowded.next .absent (.save "b.bin")).2.outcome =
      .error (.save (.file (.os ⟨28, "No space left on device", none⟩))) := by decide +kernel
  have hfails : ¬ (crowded.next .absent (.save "b.bin")).2.Succeeds := by
    rintro ⟨value, hvalue⟩
    rw [herror] at hvalue
    cases hvalue
  have hbefore : crowded.files.read "b.bin" = .ok [2, 0, 0, 0] := by decide +kernel
  have hafter : (crowded.next .absent (.save "b.bin")).1.files.read "b.bin" = .ok [1, 0] := by
    decide +kernel
  have hopen : ∃ emptied, crowded.files.write "b.bin" [] = .ok emptied :=
    ⟨crowded.files.put ["b.bin"] (.file []), by decide +kernel⟩
  refine ⟨hhistory, hfails, hbefore, ?_⟩
  obtain ⟨_, ⟨hclosed, -⟩ | ⟨-, cause, rest, hrest, hspares⟩⟩ :=
    failed_save_spares_iff hhistory hfails
  · obtain ⟨emptied, hempty⟩ := hopen
    exact absurd hempty (hclosed emptied)
  · cases hrest.written.content.symm.trans hafter
    refine ⟨cause, hrest, ?_⟩
    rw [hspares, hbefore]
    decide

theorem early_save_empties_file :
    History twoExecutables [] twoExecutables ∧
    (twoExecutables.next .absent (.save "a.bin")).2.outcome = .error (.save .nothingToSave) ∧
    twoExecutables.files.read "a.bin" = .ok [1, 0, 0, 0] ∧
    (twoExecutables.next .absent (.save "a.bin")).1.files.read "a.bin" = .ok [] ∧
    twoExecutables.files.has "c.bin" = false ∧
    (twoExecutables.next .absent (.save "c.bin")).1.files.has "c.bin" = true := by
  exact ⟨.new, by decide +kernel, by decide +kernel, by decide +kernel, by decide +kernel,
    by decide +kernel⟩

end Session

end BootImage
