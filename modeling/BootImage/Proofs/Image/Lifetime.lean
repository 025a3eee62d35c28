import BootImage.Proofs.Image.Signing

/-! The life of an image: it is loaded, signed, rendered and saved in any order, by any signers, and
between the steps the files may change in any way. Each step assigns only after its last possible
failure. So a failed step changes nothing, and whatever an image holds was put there by a step that
succeeded. -/

namespace BootImage

theorem Image.readPayload_ne_nil {files : FileStore} {reportedSize : Option Int} {path : String}
    {payload : Bytes} (h : Image.readPayload files reportedSize path = .ok payload) :
    payload ≠ [] := by
  rintro rfl
  delta Image.readPayload at h
  dsimp only at h
  split at h
  · cases h
  · split at h
    · cases h
    · next _ hfull =>
      cases h
      exact hfull rfl

theorem Image.render_output (image : Image) (output : Option Output) (format : Format) :
    Image.render { image with output } format = image.render format := by
  cases format <;> rfl

theorem Format.name_of_ofName? {name : String} {format : Format}
    (h : Format.ofName? name = some format) : format.name = name :=
  beq_iff_eq.mp (List.find?_some (p := fun format : Format => format.name == name) h)

namespace Session

-- steps are followed without looking into how a path shows its format
attribute [local irreducible] FileName.isHex

/-- All that a step can do to the image, and what it then answers. -/
inductive Effect (s : Session) : Step → Image → Answer → Prop where
  | failed {step : Step} {answer : Answer} (cause : StepError) :
    answer.outcome = .error cause → Effect s step s.image answer
  | loaded {path : String} {reportedSize : Option Int} {payload : Bytes} {answer : Answer} :
    answer.outcome = .ok .done → Image.readPayload s.files reportedSize path = .ok payload →
    Effect s (.load path reportedSize) { s.image with source := some path, payload } answer
  | signed {signer : Option Signer} {fixed : Option Bytes} {signature : Bytes} {answer : Answer} :
    answer.outcome = .ok (.signature signature) → signature.length = 256 →
    Effect s (.sign signer fixed) { s.image with signature := some signature } answer
  | rendered {operation : String} {signer : Option Signer} {fixed : Option Bytes}
    {format : Format} {output : Output} {answer : Answer} :
    answer.outcome = .ok (.output output) → Format.ofName? operation = some format →
    s.image.render format = some output →
    Effect s (.create operation signer fixed) { s.image with output := some output } answer
  | bootloader {signer : Option Signer} {fixed : Option Bytes} {signature : Bytes}
    {answer : Answer} :
    answer.outcome = .ok (.output (.text (s.image.bootloader signature))) →
    signature.length = 256 →
    Effect s (.create "bld_vhd" signer fixed) (s.image.signedAs signature) answer
  | saved {path : String} {answer : Answer} :
    answer.outcome = .ok .done → Effect s (.save path) s.image answer

variable {s t : Session} {reply : ProgramReply} {step : Step}

theorem next_load (s : Session) (reply : ProgramReply) (path : String)
    (reportedSize : Option Int) :
    s.next reply (.load path reportedSize) =
      match s.image.load s.files reportedSize path with
      | .error e => (s, { outcome := .error (.load e) })
      | .ok image =>
        ({ s with image },
          { outcome := .ok .done, printed := Image.warning image.payload }) := rfl

theorem next_sign (s : Session) (reply : ProgramReply) (signer : Option Signer)
    (fixed : Option Bytes) :
    s.next reply (.sign signer fixed) =
      match s.image.sign reply signer fixed with
      | (.error e, consulted) => (s, { outcome := .error (.signing e), consulted })
      | (.ok image, consulted) =>
        ({ s with image },
          { outcome := .ok (.signature (image.signature.getD [])), consulted }) := rfl

theorem next_save (s : Session) (reply : ProgramReply) (path : String) :
    s.next reply (.save path) =
      match s.image.save s.files path with
      | (.error e, files) => ({ s with files }, { outcome := .error (.save e) })
      | (.ok (), files) => ({ s with files }, { outcome := .ok .done }) := rfl

theorem effect_create (s : Session) (reply : ProgramReply) (operation : String)
    (signer : Option Signer) (fixed : Option Bytes) :
    Effect s (.create operation signer fixed)
      (s.next reply (.create operation signer fixed)).1.image
      (s.next reply (.create operation signer fixed)).2 := by
  cases hformat : Format.ofName? operation with
  | none =>
    have hcreate : s.image.create reply operation signer fixed =
        (.error (.unknownFormat operation), []) := by
      rw [Image.create, hformat]
    rw [next_create, hcreate]
    exact .failed _ rfl
  | some format =>
    have hname := Format.name_of_ofName? hformat
    by_cases hsigned : format = .bldVhd
    · subst hsigned hname
      rw [Format.name, next_bldVhd]
      rcases hfor : s.image.signatureFor reply signer fixed with ⟨e | signature, consulted⟩
      · exact .failed _ rfl
      · exact .bootloader rfl (Image.length_of_signatureFor (congrArg Prod.fst hfor))
    · subst hname
      rw [next_create, create_name, Image.createAs_unsigned hsigned, Image.emit]
      cases hrender : s.image.render format with
      | none => exact .failed _ rfl
      | some output => exact .rendered rfl hformat hrender

theorem next_effect (s : Session) (reply : ProgramReply) (step : Step) :
    Effect s step (s.next reply step).1.image (s.next reply step).2 := by
  cases step with
  | load path reportedSize =>
    rw [next_load, Image.load]
    cases hread : Image.readPayload s.files reportedSize path with
    | error e => exact .failed _ rfl
    | ok payload => exact .loaded rfl hread
  | sign signer fixed =>
    rw [next_sign, Image.sign]
    rcases hfor : s.image.signatureFor reply signer fixed with ⟨e | signature, consulted⟩
    · exact .failed _ rfl
    · exact .signed rfl (Image.length_of_signatureFor (congrArg Prod.fst hfor))
  | create operation signer fixed => exact effect_create s reply operation signer fixed
  | save path =>
    rw [next_save]
    rcases s.image.save s.files path with ⟨_ | _, files⟩
    · exact .failed _ rfl
    · exact .saved rfl

/-- How a step may change an image: only by succeeding, and each of its parts only by the steps that
are there to change it. -/
structure ChangesBySuccess (s : Session) (step : Step) (after : Image) (answer : Answer) :
    Prop where
  failure : ¬ answer.Succeeds → after = s.image
  origin : after.project = s.image.project ∧ after.built = s.image.built
  load : after.source ≠ s.image.source ∨ after.payload ≠ s.image.payload →
    answer.Succeeds ∧ ∃ path reportedSize, step = .load path reportedSize
  loaded : ∀ path reportedSize, step = .load path reportedSize → answer.Succeeds →
    after.source = some path ∧ Image.readPayload s.files reportedSize path = .ok after.payload
  signature : after.signature ≠ s.image.signature → answer.Succeeds ∧
    ((∃ signer fixed, step = .sign signer fixed) ∨
      ∃ signer fixed, step = .create "bld_vhd" signer fixed)
  output : after.output ≠ s.image.output →
    answer.Succeeds ∧ ∃ operation signer fixed, step = .create operation signer fixed
  rendered : ∀ operation signer fixed, step = .create operation signer fixed → answer.Succeeds →
    ∃ format output, Format.ofName? operation = some format ∧ after.output = some output ∧
      after.render format = some output ∧ answer.outcome = .ok (.output output)

theorem Effect.changesBySuccess {after : Image} {answer : Answer}
    (h : Effect s step after answer) : ChangesBySuccess s step after answer := by
  cases h with
  | failed cause houtcome =>
    have hfails : ¬ answer.Succeeds := by
      rintro ⟨value, hvalue⟩
      rw [houtcome] at hvalue
      cases hvalue
    constructor <;> simp [hfails]
  | loaded houtcome hread =>
    have hsucceeds : answer.Succeeds := ⟨_, houtcome⟩
    constructor <;> simp [hsucceeds, hread]
  | signed houtcome _ =>
    have hsucceeds : answer.Succeeds := ⟨_, houtcome⟩
    constructor <;> simp [hsucceeds]
  | @rendered _ _ _ format output _ houtcome hformat hrender =>
    have hsucceeds : answer.Succeeds := ⟨_, houtcome⟩
    have hsame := (Image.render_output s.image (some output) format).trans hrender
    constructor <;> simp [hsucceeds, hformat, hsame, houtcome]
  | @bootloader _ _ signature _ houtcome _ =>
    have hsucceeds : answer.Succeeds := ⟨_, houtcome⟩
    have hrendered : ∃ format output, Format.ofName? "bld_vhd" = some format ∧
        (s.image.signedAs signature).output = some output ∧
        (s.image.signedAs signature).render format = some output ∧
        answer.outcome = .ok (.output output) :=
      ⟨.bldVhd, _, by decide, rfl, rfl, houtcome⟩
    constructor
    case rendered =>
      rintro _ _ _ ⟨⟩ _
      exact hrendered
    all_goals simp [hsucceeds, Image.signedAs]
  | saved houtcome =>
    have hsucceeds : answer.Succeeds := ⟨_, houtcome⟩
    constructor <;> simp [hsucceeds]

/-- A session goes on by steps of its own, and by what others do to the files. -/
inductive Reaches : Session → Session → Prop where
  | refl (s : Session) : Reaches s s
  | step {s t : Session} (reply : ProgramReply) (step : Step) :
    Reaches s t → Reaches s (t.next reply step).1
  | change {s t : Session} (files : FileStore) : Reaches s t → Reaches s { t with files }

theorem Reaches.trans {u : Session} (hst : Reaches s t) (htu : Reaches t u) : Reaches s u := by
  induction htu with
  | refl => exact hst
  | step reply step _ ih => exact .step reply step ih
  | change files _ ih => exact .change files ih

theorem reaches_run (s : Session) (steps : List (ProgramReply × Step)) :
    Reaches s (s.run steps).1 := by
  induction steps generalizing s with
  | nil => exact .refl s
  | cons first rest ih =>
    obtain ⟨reply, step⟩ := first
    exact Reaches.trans (.step reply step (.refl s)) (ih (s.next reply step).1)

theorem Reaches.induct {P : Image → Prop} (h : Reaches s t) (hs : P s.image)
    (hstep : ∀ (u : Session) (step : Step) (after : Image) (answer : Answer), P u.image →
      Effect u step after answer → P after) : P t.image := by
  induction h with
  | refl => exact hs
  | @step t reply step _ ih => exact hstep t step _ _ ih (next_effect t reply step)
  | change files _ ih => exact ih

/-- No signature, or one that fills the table of a bootloader. -/
def SignatureFits (image : Image) : Prop :=
  ∀ signature, image.signature = some signature → signature.length = 256

theorem Effect.signatureFits {after : Image} {answer : Answer} (h : Effect s step after answer)
    (hs : SignatureFits s.image) : SignatureFits after := by
  cases h with
  | signed _ hlen | bootloader _ hlen =>
    intro signature hsignature
    cases hsignature
    exact hlen
  | failed | loaded | rendered | saved => exact hs

theorem Effect.payload_ne_nil {after : Image} {answer : Answer} (h : Effect s step after answer)
    (hs : s.image.payload ≠ []) : after.payload ≠ [] := by
  cases h with
  | loaded _ hread => exact Image.readPayload_ne_nil hread
  | failed | signed | rendered | bootloader | saved => exact hs

/-- In every state that a new image may come to, its signature fits, each further step changes it
by success alone, and after a load its payload stays filled. -/
theorem changes_by_success {project : Option String} {built : DateTime} {files : FileStore}
    (h : Reaches ⟨{ project, built }, files⟩ s) :
    SignatureFits s.image ∧
    (∀ reply step,
      ChangesBySuccess s step (s.next reply step).1.image (s.next reply step).2) ∧
    ∀ reply path reportedSize, (s.next reply (.load path reportedSize)).2.Succeeds →
      ∀ later, Reaches (s.next reply (.load path reportedSize)).1 later →
        later.image.payload ≠ [] := by
  refine ⟨?_, fun reply step => (next_effect s reply step).changesBySuccess, ?_⟩
  · have hnew : SignatureFits ({ project, built } : Image) := by
      intro signature hsignature
      cases hsignature
    exact h.induct hnew fun _ _ _ _ hu heffect => heffect.signatureFits hu
  · intro reply path reportedSize hsucceeds later hlater
    have hload := (next_effect s reply (.load path reportedSize)).changesBySuccess.loaded _ _ rfl
      hsucceeds
    have hfull := Image.readPayload_ne_nil hload.2
    exact hlater.induct hfull fun _ _ _ _ hu heffect => heffect.payload_ne_nil hu

def newSession : Session where
  image := { built := ⟨2024, 1, 2, 3, 4, 5⟩ }
  files := { nodes := [(["a.bin"], .file [1, 0, 0, 0])] }

def mishaps : List (ProgramReply × Step) :=
  [(.absent, .load "b.bin" none), (.absent, .sign none none), (.absent, .create "elf" none none),
    (.absent, .create "raw_hex" none none), (.absent, .load "a.bin" (some 5))]

theorem mishaps_change_nothing_else :
    (newSession.next .absent (.load "a.bin" none)).2.Succeeds ∧
    ((newSession.next .absent (.load "a.bin" none)).1.run mishaps).1.image.payload ≠ [] ∧
    SignatureFits ((newSession.next .absent (.load "a.bin" none)).1.run mishaps).1.image ∧
    ∀ reply step, ChangesBySuccess ((newSession.next .absent (.load "a.bin" none)).1.run mishaps).1
      step (((newSession.next .absent (.load "a.bin" none)).1.run mishaps).1.next reply step).1.image
      (((newSession.next .absent (.load "a.bin" none)).1.run mishaps).1.next reply step).2 := by
  have hloaded : (newSession.next .absent (.load "a.bin" none)).2.Succeeds :=
    ⟨.done, by decide +kernel⟩
  have hlater := reaches_run (newSession.next .absent (.load "a.bin" none)).1 mishaps
  have hreaches := Reaches.trans
    (.step .absent (.load "a.bin" none) (.refl newSession)) hlater
  obtain ⟨hfits, hsteps, -⟩ := changes_by_success hreaches
  obtain ⟨-, -, hfull⟩ := changes_by_success (.refl newSession)
  exact ⟨hloaded, hfull _ _ _ hloaded _ hlater, hfits, hsteps⟩

end Session

end BootImage
