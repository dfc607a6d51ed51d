import Gpq.Lib.Json
import Gpq.Remote.Admission

/-!
# The idempotency digest

What an idempotency key must match on replay: the SHA-256 digest of a JSON rendering of the
request. The value that is rendered (`digestPayload`) determines everything of the request
but the fraction of a second of its execution timeout (`digestPayload_eq_iff`).

The rendering is `serde_json`'s and outside the repository, so the results take it as a
parameter.
-/

namespace Gpq

/-! ## Values -/

/-- A float: one that is not finite is rendered as `null`. -/
def F32.toJson (x : F32) : Json := if x.isFinite then .float x else .null

/-- A LoRA with its scale. -/
def LoraSelection.toJson (self : LoraSelection) : Json :=
  .object [("sha256", .string self.sha256.toHex), ("scale", self.scale.toJson)]

/-- The typed parameters, tagged with their kind. -/
def GenerationParameters.toJson : GenerationParameters → Json
  | image params => .object [
      ("kind", .string "image"),
      ("prompt", .string params.prompt),
      ("negative_prompt", .string params.negativePrompt),
      ("width", .uint params.width.toNat),
      ("height", .uint params.height.toNat),
      ("steps", .ofOption (fun steps => .uint steps.toNat) params.steps),
      ("cfg_scale", .ofOption F32.toJson params.cfgScale),
      ("references", .ofList (fun id => .string (displayUuid id)) params.references),
      ("loras", .ofList LoraSelection.toJson params.loras),
      ("sigmas", .ofOption (.ofList F32.toJson) params.sigmas)]
  | video params => .object [
      ("kind", .string "video"),
      ("prompt", .string params.prompt),
      ("negative_prompt", .string params.negativePrompt),
      ("width", .uint params.width.toNat),
      ("height", .uint params.height.toNat),
      ("frames", .uint params.frames.toNat),
      ("first_frame", .ofOption (fun id => .string (displayUuid id)) params.firstFrame),
      ("last_frame", .ofOption (fun id => .string (displayUuid id)) params.lastFrame)]

/-- The stable text form of a placement. -/
def ArtifactPlacement.asStr : ArtifactPlacement → String
  | objectStore => "object_store"
  | workerLocal => "worker_local"
  | remoteLocal => "remote_local"

/-- What the digest is taken of. -/
def digestPayload (request : AdmissionRequest) : Json :=
  .object [
    ("alias", .string request.aliasName),
    ("parameters", request.parameters.toJson),
    ("output_placement", .string request.outputPlacement.asStr),
    ("priority", .ofOption (fun priority => .uint priority.val) request.priority),
    ("seed", .ofOption (fun seed => .uint seed.toNat) request.seed),
    -- `Duration::as_secs` drops the fraction of a second
    ("execution_timeout_secs", .ofOption (fun timeout => .uint (timeout / 10 ^ 9))
      request.executionTimeout)]

/-! ## What the payload determines -/

/-- Every float of the parameters is finite. -/
def GenerationParameters.Finite : GenerationParameters → Prop
  | image params => (∀ x ∈ params.cfgScale, x.isFinite) ∧
    (∀ lora ∈ params.loras, lora.scale.isFinite) ∧
      ∀ sigmas ∈ params.sigmas, ∀ x ∈ sigmas, x.isFinite
  | video _ => True

theorem F32.toJson_inj {x y : F32} (hx : x.isFinite) (hy : y.isFinite) (h : x.toJson = y.toJson) :
    x = y := by
  rw [F32.toJson, if_pos hx, F32.toJson, if_pos hy] at h
  exact Json.float.inj h

theorem F32.toJson_ne_null {x : F32} (hx : x.isFinite) : x.toJson ≠ .null := by
  rw [F32.toJson, if_pos hx]
  exact nofun

/-- LoRAs of the same JSON are the same: a digest and a finite scale are. -/
theorem LoraSelection.toJson_inj {a b : LoraSelection} (ha : a.scale.isFinite) (hb : b.scale.isFinite)
    (h : a.toJson = b.toJson) : a = b := by
  obtain ⟨hash, scale⟩ := a
  obtain ⟨hash', scale'⟩ := b
  obtain ⟨hsha, hscale⟩ : hash.toHex = hash'.toHex ∧ scale.toJson = scale'.toJson := by
    simpa [LoraSelection.toJson] using h
  obtain rfl : hash = hash' := ContentHash.toHex_injective hsha
  obtain rfl : scale = scale' := F32.toJson_inj ha hb hscale
  rfl

/-- The identifiers of Artifacts are told apart. -/
theorem uuidJson_inj {a b : Uuid} (h : Json.string (displayUuid a) = .string (displayUuid b)) :
    a = b :=
  displayUuid_injective (Json.string.inj h)

theorem uint32Json_inj {a b : UInt32} (h : Json.uint a.toNat = .uint b.toNat) : a = b :=
  UInt32.toNat_inj.1 (Json.uint.inj h)

/-- Optional 32-bit numbers are told apart. -/
theorem optionUInt32Json_inj {a b : Option UInt32}
    (h : Json.ofOption (fun n : UInt32 => .uint n.toNat) a = .ofOption (fun n => .uint n.toNat) b) :
    a = b :=
  Json.ofOption_inj (f := fun n : UInt32 => .uint n.toNat) (fun _ _ => nofun) (fun _ _ => nofun)
    (fun _ _ _ _ => uint32Json_inj) h

/-- Optional identifiers are told apart. -/
theorem optionUuidJson_inj {a b : Option Uuid}
    (h : Json.ofOption (fun id => .string (displayUuid id)) a =
      .ofOption (fun id => .string (displayUuid id)) b) :
    a = b :=
  Json.ofOption_inj (f := fun id => .string (displayUuid id)) (fun _ _ => nofun) (fun _ _ => nofun)
    (fun _ _ _ _ => uuidJson_inj) h

/-- Parameters of the same JSON are the same, as long as their numbers are finite. -/
theorem GenerationParameters.toJson_inj {p q : GenerationParameters} (hp : p.Finite) (hq : q.Finite)
    (h : p.toJson = q.toJson) : p = q := by
  cases p with
  | image p =>
    cases q with
    | video q => simp [toJson] at h
    | image q =>
      obtain ⟨hcfg, hloras, hsigmas⟩ := hp
      obtain ⟨hcfg', hloras', hsigmas'⟩ := hq
      obtain ⟨prompt, negative, width, height, steps, cfg, references, loras, sigmas⟩ := p
      obtain ⟨prompt', negative', width', height', steps', cfg', references', loras', sigmas'⟩ := q
      simp only [toJson, Json.object.injEq, List.cons.injEq, Prod.mk.injEq, true_and, and_true,
        Json.string.injEq] at h
      obtain ⟨rfl, rfl, hw, hh, hs, hc, hr, hl, hsig⟩ := h
      -- field by field
      obtain rfl := uint32Json_inj hw
      obtain rfl := uint32Json_inj hh
      obtain rfl := optionUInt32Json_inj hs
      obtain rfl := Json.ofOption_inj (fun x hx => F32.toJson_ne_null (hcfg x hx))
        (fun x hx => F32.toJson_ne_null (hcfg' x hx))
        (fun x hx y hy => F32.toJson_inj (hcfg x hx) (hcfg' y hy)) hc
      obtain rfl := Json.ofList_inj (fun _ _ _ _ => uuidJson_inj) hr
      obtain rfl := Json.ofList_inj
        (fun a ha b hb => LoraSelection.toJson_inj (hloras a ha) (hloras' b hb)) hl
      obtain rfl := Json.ofOption_inj (f := .ofList F32.toJson) (fun _ _ => nofun) (fun _ _ => nofun)
        (fun s hs s' hs' => Json.ofList_inj fun x hx y hy =>
          F32.toJson_inj (hsigmas s hs x hx) (hsigmas' s' hs' y hy)) hsig
      rfl
  | video p =>
    cases q with
    | image q => simp [toJson] at h
    | video q =>
      obtain ⟨prompt, negative, width, height, frames, first, last⟩ := p
      obtain ⟨prompt', negative', width', height', frames', first', last'⟩ := q
      simp only [toJson, Json.object.injEq, List.cons.injEq, Prod.mk.injEq, true_and, and_true,
        Json.string.injEq] at h
      obtain ⟨rfl, rfl, hw, hh, hfr, hfi, hla⟩ := h
      obtain rfl := uint32Json_inj hw
      obtain rfl := uint32Json_inj hh
      obtain rfl := uint32Json_inj hfr
      obtain rfl := optionUuidJson_inj hfi
      obtain rfl := optionUuidJson_inj hla
      rfl

theorem ArtifactPlacement.asStr_injective : Function.Injective asStr := by
  intro a b h
  cases a <;> cases b <;> first
    | rfl
    | exact absurd h (by decide)

/-- The payload determines the request but for the key and the fraction of a second of the
    execution timeout. -/
theorem digestPayload_eq_iff {x y : AdmissionRequest} (hx : x.parameters.Finite)
    (hy : y.parameters.Finite) : digestPayload x = digestPayload y ↔
      x.aliasName = y.aliasName ∧ x.parameters = y.parameters ∧
      x.outputPlacement = y.outputPlacement ∧ x.priority = y.priority ∧ x.seed = y.seed ∧
      x.executionTimeout.map (· / 10 ^ 9) = y.executionTimeout.map (· / 10 ^ 9) := by
  constructor
  · intro h
    simp only [digestPayload, Json.object.injEq, List.cons.injEq, Prod.mk.injEq, true_and, and_true,
      Json.string.injEq] at h
    obtain ⟨ha, hp, ho, hpri, hs, ht⟩ := h
    have hseed : x.seed = y.seed := Json.ofOption_inj (f := fun seed : UInt64 => .uint seed.toNat)
      (fun _ _ => nofun) (fun _ _ => nofun) (fun _ _ _ _ h => UInt64.toNat_inj.1 (Json.uint.inj h)) hs
    have hpriority : x.priority = y.priority := Json.ofOption_inj
      (f := fun priority : Priority => .uint priority.val) (fun _ _ => nofun) (fun _ _ => nofun)
      (fun _ _ _ _ h => Fin.val_inj.1 (Json.uint.inj h)) hpri
    refine ⟨ha, GenerationParameters.toJson_inj hx hy hp, ArtifactPlacement.asStr_injective ho,
      hpriority, hseed, ?_⟩
    cases hxt : x.executionTimeout <;> cases hyt : y.executionTimeout <;>
      simp_all [Json.ofOption]
  · rintro ⟨ha, hp, ho, hpri, hs, ht⟩
    have hmap : ∀ o : Option ℕ, Json.ofOption (fun timeout => .uint (timeout / 10 ^ 9)) o =
        .ofOption .uint (o.map (· / 10 ^ 9)) := fun o => by cases o <;> rfl
    rw [digestPayload, digestPayload, ha, hp, ho, hpri, hs, hmap, ht, ← hmap]

end Gpq
