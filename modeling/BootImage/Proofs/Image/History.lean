import BootImage.Proofs.Image.Lifetime

/-! Where the results of an image come from. Its output is what the last rendering made of the
payload of that moment, and its signature is what the last signing got for it. A load resets neither
of them, so they belong to the loaded payload exactly as long as no load has followed. -/

namespace BootImage

namespace Image

/-- What a rendering shows of an image, besides its signature. -/
def content (image : Image) : Option String × DateTime × Option String × Bytes :=
  (image.project, image.built, image.source, image.payload)

/-- The output shows the content of the image in some format, with some signature. -/
def ShownBy (image : Image) (output : Output) : Prop :=
  ∃ (format : Format) (signature : Option Bytes),
    Image.render { image with signature } format = some output

theorem ShownBy.of_content_eq {image other : Image} {output : Output} (h : image.ShownBy output)
    (hcontent : image.content = other.content) : other.ShownBy output := by
  obtain ⟨format, signature, hrender⟩ := h
  obtain ⟨project, built, source, payload, _, shown⟩ := image
  obtain ⟨_, _, _, _, _, earlier⟩ := other
  simp only [content, Prod.mk.injEq] at hcontent
  obtain ⟨rfl, rfl, rfl, rfl⟩ := hcontent
  have hother := render_output ⟨project, built, source, payload, signature, shown⟩ earlier format
  exact ⟨format, signature, hother.trans hrender⟩

theorem digestMessage_of_content_eq {image other : Image} (h : image.content = other.content) :
    image.digestMessage = other.digestMessage := by
  have hpayload : image.payload = other.payload := congrArg (fun c => c.2.2.2) h
  rw [digestMessage, digestMessage, hpayload]

end Image

namespace Session

/-- A step that was taken in a session. -/
structure Entry where
  before : Session
  reply : ProgramReply
  step : Step

namespace Entry

def after (e : Entry) : Session := (e.before.next e.reply e.step).1

def answer (e : Entry) : Answer := (e.before.next e.reply e.step).2

def Loads (e : Entry) : Prop :=
  e.answer.Succeeds ∧ ∃ path reportedSize, e.step = .load path reportedSize

def Renders (e : Entry) : Prop :=
  e.answer.Succeeds ∧ ∃ operation signer fixed, e.step = .create operation signer fixed

def AsksFor (e : Entry) (signer : Option Signer) (fixed : Option Bytes) : Prop :=
  e.step = .sign signer fixed ∨ e.step = .create "bld_vhd" signer fixed

def Signs (e : Entry) : Prop := e.answer.Succeeds ∧ ∃ signer fixed, e.AsksFor signer fixed

theorem changes (e : Entry) : ChangesBySuccess e.before e.step e.after.image e.answer :=
  (next_effect e.before e.reply e.step).changesBySuccess

end Entry

/-- The steps of a session, latest first. Between them, others may change the files. -/
inductive History (start : Session) : List Entry → Session → Prop where
  | new : History start [] start
  | step {past : List Entry} {s : Session} (reply : ProgramReply) (step : Step) :
    History start past s → History start (⟨s, reply, step⟩ :: past) (s.next reply step).1
  | change {past : List Entry} {s : Session} (files : FileStore) :
    History start past s → History start past { s with files }

/-- The last entry of a kind, and the entries that came later. -/
structure IsLast (kind : Entry → Prop) (past : List Entry) (e : Entry) (later : List Entry) :
    Prop where
  split : ∃ earlier, past = later ++ e :: earlier
  here : kind e
  never_later : ∀ other ∈ later, ¬ kind other

variable {start s : Session} {past later earlier : List Entry} {e : Entry} {kind : Entry → Prop}
  {α : Type} {part : Image → α}

theorem History.entry (h : History start past e.before) : History start (e :: past) e.after :=
  .step e.reply e.step h

theorem exists_isLast (kind : Entry → Prop) (past : List Entry) :
    (∀ e ∈ past, ¬ kind e) ∨ ∃ e later, IsLast kind past e later := by
  induction past with
  | nil => exact Or.inl (by simp)
  | cons latest past ih =>
    by_cases hlatest : kind latest
    · exact Or.inr ⟨latest, [], ⟨past, rfl⟩, hlatest, by simp⟩
    · rcases ih with hnone | ⟨e, later, ⟨earlier, rfl⟩, he, hlater⟩
      · left
        simpa [hlatest] using hnone
      · right
        exact ⟨e, latest :: later, ⟨earlier, rfl⟩, he, by simpa [hlatest] using hlater⟩

theorem IsLast.eq_latest {latest : Entry} (h : IsLast kind (latest :: past) e later)
    (hlatest : kind latest) : e = latest ∧ later = [] := by
  obtain ⟨⟨earlier, hsplit⟩, -, hlater⟩ := h
  cases later with
  | nil => exact ⟨(List.cons.inj hsplit).1.symm, rfl⟩
  | cons other later =>
    obtain ⟨rfl, -⟩ := List.cons.inj hsplit
    exact absurd hlatest (hlater _ List.mem_cons_self)

/-- What only one kind of step sets stays as the last of them left it. -/
theorem History.part_eq (hkeeps : ∀ e : Entry, ¬ kind e → part e.after.image = part e.before.image)
    (h : History start (later ++ e :: earlier) s) (hlater : ∀ other ∈ later, ¬ kind other) :
    part s.image = part e.after.image := by
  generalize hpast : later ++ e :: earlier = past at h
  induction h generalizing later with
  | new => simp at hpast
  | @step past s reply step _ ih =>
    cases later with
    | nil =>
      obtain ⟨rfl, -⟩ := List.cons.inj hpast
      rfl
    | cons latest later =>
      obtain ⟨rfl, hrest⟩ := List.cons.inj hpast
      have hlatest := hkeeps _ (hlater _ List.mem_cons_self)
      have hearlier := ih (fun other hother => hlater other (List.mem_cons_of_mem _ hother)) hrest
      exact hlatest.trans hearlier
  | change files _ ih => exact ih hlater hpast

theorem History.part_eq_start
    (hkeeps : ∀ e : Entry, ¬ kind e → part e.after.image = part e.before.image)
    (h : History start past s) (hnone : ∀ e ∈ past, ¬ kind e) :
    part s.image = part start.image := by
  induction h with
  | new => rfl
  | step reply step _ ih =>
    have hlatest := hkeeps _ (hnone _ List.mem_cons_self)
    exact hlatest.trans (ih fun other hother => hnone other (List.mem_cons_of_mem _ hother))
  | change files _ ih => exact ih hnone

theorem History.exists_last
    (hkeeps : ∀ e : Entry, ¬ kind e → part e.after.image = part e.before.image)
    (h : History start past s) (hpart : part s.image ≠ part start.image) :
    ∃ e later, IsLast kind past e later ∧ part e.after.image = part s.image := by
  rcases exists_isLast kind past with hnone | ⟨e, later, hlast⟩
  · exact absurd (h.part_eq_start hkeeps hnone) hpart
  · obtain ⟨earlier, hsplit⟩ := hlast.split
    rw [hsplit] at h
    exact ⟨e, later, hlast, (h.part_eq hkeeps hlast.never_later).symm⟩

namespace Entry

theorem keeps_content (e : Entry) (h : ¬ e.Loads) :
    e.after.image.content = e.before.image.content := by
  obtain ⟨hproject, hbuilt⟩ := e.changes.origin
  have hloaded : e.after.image.source = e.before.image.source ∧
      e.after.image.payload = e.before.image.payload := by
    by_contra hchanged
    exact h (e.changes.load (not_and_or.mp hchanged))
  simp only [Image.content, hproject, hbuilt, hloaded]

theorem keeps_output (e : Entry) (h : ¬ e.Renders) :
    e.after.image.output = e.before.image.output := by
  by_contra hchanged
  exact h (e.changes.output hchanged)

theorem keeps_signature (e : Entry) (h : ¬ e.Signs) :
    e.after.image.signature = e.before.image.signature := by
  by_contra hchanged
  obtain ⟨hsucceeds, ⟨signer, fixed, hstep⟩ | ⟨signer, fixed, hstep⟩⟩ :=
    e.changes.signature hchanged
  · exact h ⟨hsucceeds, signer, fixed, Or.inl hstep⟩
  · exact h ⟨hsucceeds, signer, fixed, Or.inr hstep⟩

theorem Renders.not_loads (h : e.Renders) : ¬ e.Loads := by
  rintro ⟨_, path, reportedSize, hload⟩
  obtain ⟨_, operation, signer, fixed, hcreate⟩ := h
  rw [hload] at hcreate
  cases hcreate

theorem Signs.not_loads (h : e.Signs) : ¬ e.Loads := by
  rintro ⟨_, path, reportedSize, hload⟩
  obtain ⟨_, signer, fixed, hstep⟩ := h
  rw [AsksFor, hload] at hstep
  rcases hstep with hsign | hcreate
  · cases hsign
  · cases hcreate

theorem Renders.shows {output : Output} (h : e.Renders)
    (houtput : e.after.image.output = some output) :
    e.answer.outcome = .ok (.output output) ∧ e.before.image.ShownBy output := by
  obtain ⟨hsucceeds, operation, signer, fixed, hstep⟩ := h
  obtain ⟨format, shown, -, hshown, hrender, houtcome⟩ :=
    e.changes.rendered operation signer fixed hstep hsucceeds
  cases hshown.symm.trans houtput
  have hafter : e.after.image.ShownBy output := ⟨format, e.after.image.signature, hrender⟩
  have hcontent := e.keeps_content (Renders.not_loads ⟨hsucceeds, operation, signer, fixed, hstep⟩)
  exact ⟨houtcome, hafter.of_content_eq hcontent⟩

/-- The signer was given this message alone and answered with the signature. -/
structure MadeOver (e : Entry) (signer : Signer) (message signature : Bytes) : Prop where
  given : messages e.answer.consulted = [message]
  answered : (signer.sign e.reply message).1 = .ok signature

variable {signer : Option Signer} {fixed : Option Bytes} {signature : Bytes}

theorem exists_signatureFor (hsucceeds : e.answer.Succeeds) (h : e.AsksFor signer fixed) :
    ∃ signature, (e.before.image.signatureFor e.reply signer fixed).1 = .ok signature ∧
      e.after.image.signature = some signature ∧
      e.answer.consulted = (e.before.image.signatureFor e.reply signer fixed).2 := by
  obtain ⟨before, reply, step⟩ := e
  obtain ⟨value, hvalue⟩ := hsucceeds
  simp only [answer, after] at hvalue ⊢
  rcases h with h | h
  · dsimp only at h
    subst h
    rw [next_sign, Image.sign] at hvalue ⊢
    rcases hfor : before.image.signatureFor reply signer fixed with ⟨cause | signature, consulted⟩
    · rw [hfor] at hvalue
      cases hvalue
    · exact ⟨signature, rfl, rfl, rfl⟩
  · dsimp only at h
    subst h
    rw [next_bldVhd] at hvalue ⊢
    rcases hfor : before.image.signatureFor reply signer fixed with ⟨cause | signature, consulted⟩
    · rw [hfor] at hvalue
      cases hvalue
    · exact ⟨signature, rfl, rfl, rfl⟩

theorem Signs.madeOver (h : e.Signs) (hsignature : e.after.image.signature = some signature)
    {signer : Signer} (hasks : e.AsksFor (some signer) none) :
    e.MadeOver signer e.before.image.digestMessage signature := by
  obtain ⟨made, hmade, hafter, hconsulted⟩ := exists_signatureFor h.1 hasks
  cases hafter.symm.trans hsignature
  refine ⟨?_, (Image.signatureFor_eq_ok.mp hmade).1⟩
  rw [hconsulted, Image.signatureFor_consulted]

theorem Signs.eq_fixed (h : e.Signs) (hsignature : e.after.image.signature = some signature)
    {fixed : Bytes} (hasks : e.AsksFor signer (some fixed)) : signature = fixed := by
  obtain ⟨made, hmade, hafter, -⟩ := exists_signatureFor h.1 hasks
  cases hafter.symm.trans hsignature
  exact (((Image.signatureFor_fixed _ _ _ _).2 _).mp hmade).1

end Entry

theorem History.payload_eq (h : History start past s) (hloads : ∀ e ∈ past, ¬ e.Loads) :
    s.image.payload = start.image.payload := by
  have hcontent := h.part_eq_start Entry.keeps_content hloads
  exact congrArg (fun c => c.2.2.2) hcontent

/-- The output of an image shows what was loaded when it was rendered, and its signature was made
for what was loaded when it was signed. That is what is loaded now, unless a load came later. -/
theorem results_belong_to_their_load {project : Option String} {built : DateTime}
    {files : FileStore} (h : History ⟨{ project, built }, files⟩ past s) :
    (∀ output, s.image.output = some output → ∃ e later, IsLast Entry.Renders past e later ∧
      e.answer.outcome = .ok (.output output) ∧ e.before.image.ShownBy output ∧
      ((∀ other ∈ later, ¬ other.Loads) → s.image.ShownBy output)) ∧
    ∀ signature, s.image.signature = some signature → ∃ e later, IsLast Entry.Signs past e later ∧
      (∀ signer fixed, e.AsksFor signer (some fixed) → signature = fixed) ∧
      ∀ signer, e.AsksFor (some signer) none →
        e.MadeOver signer e.before.image.digestMessage signature ∧
        ((∀ other ∈ later, ¬ other.Loads) →
          e.MadeOver signer s.image.digestMessage signature) := by
  have hcontent {e : Entry} {later : List Entry} (hsplit : ∃ earlier, past = later ++ e :: earlier)
      (he : ¬ e.Loads) (hlater : ∀ other ∈ later, ¬ other.Loads) :
      e.before.image.content = s.image.content := by
    obtain ⟨earlier, rfl⟩ := hsplit
    exact ((h.part_eq Entry.keeps_content hlater).trans (e.keeps_content he)).symm
  constructor
  · intro output houtput
    have hset : s.image.output ≠ none := by simp [houtput]
    obtain ⟨e, later, hlast, hpart⟩ := h.exists_last Entry.keeps_output hset
    obtain ⟨houtcome, hshown⟩ := hlast.here.shows (hpart.trans houtput)
    refine ⟨e, later, hlast, houtcome, hshown, ?_⟩
    intro hlater
    exact hshown.of_content_eq (hcontent hlast.split hlast.here.not_loads hlater)
  · intro signature hsignature
    have hset : s.image.signature ≠ none := by simp [hsignature]
    obtain ⟨e, later, hlast, hpart⟩ := h.exists_last Entry.keeps_signature hset
    have hafter := hpart.trans hsignature
    refine ⟨e, later, hlast, fun _ _ => hlast.here.eq_fixed hafter, fun signer hasks => ?_⟩
    have hmade := hlast.here.madeOver hafter hasks
    refine ⟨hmade, fun hlater => ?_⟩
    rw [← Image.digestMessage_of_content_eq (hcontent hlast.split hlast.here.not_loads hlater)]
    exact hmade

def repeater : Signer :=
  .custom ⟨.ok "repeater", .ok 256, fun message => .ok (List.replicate 8 message).flatten⟩

def twoExecutables : Session where
  image := { built := ⟨2024, 1, 2, 3, 4, 5⟩ }
  files := { nodes := [(["a.bin"], .file [1, 0, 0, 0]), (["b.bin"], .file [2, 0, 0, 0])] }

def firstLoad : Entry := ⟨twoExecutables, .absent, .load "a.bin" none⟩

def firstBootloader : Entry := ⟨firstLoad.after, .absent, .create "bld_vhd" (some repeater) none⟩

theorem first_bootloader_belongs :
    History twoExecutables [firstBootloader, firstLoad] firstBootloader.after ∧
    ∃ output signature,
      firstBootloader.after.image.output = some output ∧
      firstBootloader.after.image.ShownBy output ∧
      firstBootloader.after.image.signature = some signature ∧
      firstBootloader.MadeOver repeater firstBootloader.after.image.digestMessage signature := by
  have hhistory : History twoExecutables [firstBootloader, firstLoad] firstBootloader.after :=
    .step _ _ (.step _ _ .new)
  have hsucceeds : firstBootloader.answer.Succeeds :=
    succeeds_bldVhd.mpr ⟨(List.replicate 8 (Digest.wordMessage [1, 0, 0, 0])).flatten, by
      decide +kernel⟩
  have hasks : firstBootloader.AsksFor (some repeater) none := Or.inr rfl
  have hrenders : firstBootloader.Renders := ⟨hsucceeds, _, _, _, rfl⟩
  have hsigns : firstBootloader.Signs := ⟨hsucceeds, _, _, hasks⟩
  obtain ⟨signature, -, hsignature, -⟩ := Entry.exists_signatureFor hsucceeds hasks
  obtain ⟨_, output, -, houtput, -⟩ := firstBootloader.changes.rendered _ _ _ rfl hsucceeds
  obtain ⟨houtputs, hsignatures⟩ := results_belong_to_their_load hhistory
  obtain ⟨_, _, hrendered, -, -, hshown⟩ := houtputs output houtput
  obtain ⟨rfl, rfl⟩ := hrendered.eq_latest hrenders
  obtain ⟨_, _, hsigned, -, hmade⟩ := hsignatures signature hsignature
  obtain ⟨rfl, rfl⟩ := hsigned.eq_latest hsigns
  exact ⟨hhistory, output, signature, houtput, hshown (by simp), hsignature,
    (hmade repeater hasks).2 (by simp)⟩

def reloaded : Session :=
  (twoExecutables.run [(.absent, .load "a.bin" none), (.absent, .sign (some repeater) none),
    (.absent, .create "raw_bin" none none), (.absent, .load "b.bin" none)]).1

theorem reload_keeps_results :
    (∃ output, reloaded.image.output = some output ∧ ¬ reloaded.image.ShownBy output) ∧
    ∃ signature, reloaded.image.signature = some signature ∧
      (repeater.sign .absent (Digest.wordMessage [1, 0, 0, 0])).1 = .ok signature ∧
      (repeater.sign .absent reloaded.image.digestMessage).1 ≠ .ok signature := by
  have himage : reloaded.image =
      { built := ⟨2024, 1, 2, 3, 4, 5⟩, source := some "b.bin", payload := [2, 0, 0, 0]
        signature := some (List.replicate 8 (Digest.wordMessage [1, 0, 0, 0])).flatten
        output := some (.binary [1, 0, 0, 0]) } := by decide +kernel
  rw [himage]
  refine ⟨⟨_, rfl, ?_⟩, _, rfl, rfl, by decide +kernel⟩
  rintro ⟨format, signature, hrender⟩
  cases format with
  | appBin =>
    have hunsigned : Image.render { built := ⟨2024, 1, 2, 3, 4, 5⟩, payload := [2, 0, 0, 0] }
        .appBin = some (.binary [1, 0, 0, 0]) := hrender
    exact absurd hunsigned (by decide +kernel)
  | rawBin => cases hrender
  | appVhd | bldVhd | rawHex | rawCoe | rawMem | rawMif => cases hrender

end Session

end BootImage
