import CreativeStudio.Data.Json

/-!
# Shared generation schemas

The request a job executes, the result a generator returns, and the literals both
are written with. Ids of jobs are uuids: the program only compares them, so a number
stands for one.
-/

namespace CreativeStudio
open Data

/-- `job_` followed by a uuid. -/
abbrev JobId := ℕ

inductive MediaType
  | image | video | audio | text
  deriving DecidableEq, Repr

inductive ReferenceRole
  | character | location
  deriving DecidableEq, Repr

inductive ReferencePreprocessing
  | none | auto | faceCrop | canny | depth
  deriving DecidableEq, Repr

/-- One character or location reference image attached to a request. -/
structure ReferenceImageInput where
  assetId : String
  role : ReferenceRole
  strength : ℚ
  preprocessing : ReferencePreprocessing
  deriving DecidableEq, Repr

/-- Common request payload for media generation. -/
@[ext]
structure GenerationRequest where
  mediaType : MediaType
  taskType : Option String
  prompt : String
  negativePrompt : Option String
  modelId : String
  seed : Option ℤ
  outputFormat : Option String
  params : Obj
  references : List ReferenceImageInput
  deriving DecidableEq, Repr

namespace GenerationRequest

/-- The request as a file or a row written with sorted keys holds it. -/
def canon (request : GenerationRequest) : GenerationRequest :=
  { request with params := request.params.canon }

/-- Equality of requests: field by field, with `params` as a dictionary. -/
def Same (a b : GenerationRequest) : Prop := a.canon = b.canon

instance (a b : GenerationRequest) : Decidable (a.Same b) :=
  inferInstanceAs (Decidable (a.canon = b.canon))

@[simp] theorem canon_canon (request : GenerationRequest) :
    request.canon.canon = request.canon := by simp [canon]

@[simp] theorem seed_canon (request : GenerationRequest) : request.canon.seed = request.seed := rfl
@[simp] theorem modelId_canon (request : GenerationRequest) :
    request.canon.modelId = request.modelId := rfl

theorem Same.refl (a : GenerationRequest) : a.Same a := rfl

end GenerationRequest

/-- Common result payload returned by generators. -/
structure GenerationResult where
  jobId : JobId
  outputs : List String
  previews : List String
  metadata : Obj
  deriving DecidableEq, Repr

end CreativeStudio
