import CreativeStudio.Routes.Assembly
import CreativeStudio.Routes.Consistency
import CreativeStudio.Video.Opening

/-!
# Assembly within a project

Two routes queue an assembly and resolve the assets of its timeline first, against the project that the
job is created for. The generator looks the assets up again, by their ids alone, when the job is run. What
keeps it within the project is that the queued timeline names nothing else, which a rerun with the same
params and the same project does not change.
-/

namespace CreativeStudio.Routes
open Data Jobs Assets Projects Story

/-! ## The routes -/

/-- `GenerateAssemblyRequest`. -/
structure GenerateAssemblyRequest where
  prompt : String
  negativePrompt : Option String := none
  modelId : String := ""
  seed : Option ℤ := none
  outputFormat : Option String := none
  projectId : Option ProjectId := none
  params : Obj := []

/-- `to_generation_request`. -/
def GenerateAssemblyRequest.toGenerationRequest (request : GenerateAssemblyRequest) : GenerationRequest where
  mediaType := .video
  taskType := some "assembly"
  prompt := request.prompt
  negativePrompt := request.negativePrompt
  modelId := request.modelId
  seed := request.seed
  outputFormat := request.outputFormat
  params := request.params
  references := []

/-- `_prepare_assembly_request`. -/
def prepareAssemblyRequest (s : Studio) (request : GenerateAssemblyRequest) :
    Except RouteError GenerateAssemblyRequest := do
  let project ← resolveProjectId "Project not found" request.projectId s
  let timeline ← resolveTimelineAssets s.asset? project (readValue ((request.params.get? "timeline").getD .null))
  return { request with params := Dict.set request.params "timeline" (storedValue timeline) }

/-- The request that `assemble_story` creates its job with. -/
def AssemblyJob.toGenerationRequest (job : AssemblyJob) : GenerationRequest where
  mediaType := .video
  taskType := some job.taskType
  prompt := job.prompt
  negativePrompt := none
  modelId := job.modelId
  seed := none
  outputFormat := job.outputFormat
  params := JsonOf.mapMembers PyFloat.rat? job.params
  references := []

section
variable (checks : Checks) (text : TextLibrary)

/-- `generate_assembly`. -/
def generateAssembly (id : JobId) (request : GenerateAssemblyRequest) (s : Studio) : Reply :=
  match prepareAssemblyRequest s request with
  | .error e => (.error e, s)
  | .ok request => enqueueGeneration checks id request.toGenerationRequest request.projectId s

/-- `assemble_story`, from `create_job` on. What `create_job` raises is let through. -/
def queueAssembly (id : JobId) (job : AssemblyJob) (s : Studio) : Reply :=
  match createJob checks id job.toGenerationRequest job.projectId s with
  | (.error e, s) => (.error (.raised e), s)
  | (.ok (), s) => (.ok (.job id), job.projectId.elim s fun project => s.addJob project id)

/-- A request that may queue an assembly, or another job from a convenience endpoint. -/
inductive QueueRequest
  | generateAssembly (id : JobId) (request : GenerateAssemblyRequest)
  | assembleStory (id : JobId) (storyId : StoryId) (request : AssembleStoryRequest)
  | generate (id : JobId) (request : GenerationRequest) (project : Option ProjectId)
  | rerun (source id : JobId) (request : RerunJobRequest)

/-- Serve a request. -/
def Studio.queue (s : Studio) : QueueRequest → Reply
  | .generateAssembly id request => Routes.generateAssembly checks id request s
  | .assembleStory id storyId request =>
    match Routes.assembleStory text s.stage.shelves.stories s.asset? storyId request with
    | .error e => (.error e, s)
    | .ok job => queueAssembly checks id job s
  | .generate id request project => enqueueGeneration checks id request project s
  | .rerun source id request => rerunJob checks source id request s

/-- Serve one request after the other. -/
def Studio.queueAll (s : Studio) (requests : List QueueRequest) : Studio :=
  requests.foldl (fun s request => (s.queue checks text request).2) s

end

/-! ## The generator -/

theorem sampleRate_pos : 0 < 44100 := by decide

theorem sampleRate_le : 44100 ≤ 48000 := by decide

/-- `create_default_assembly_generator`: the path of an asset is looked up by its id. -/
def assemblyGenerator (assets : AssetId → Option Asset) : Video.AssemblyGenerator where
  assetPathLookup := some fun id => (assets id).map Asset.path
  allowDirectPaths := false
  sampleRate_pos := sampleRate_pos
  sampleRate_le := sampleRate_le

/-- What the generator reads of the request of a job. -/
def assemblyRequest (request : GenerationRequest) : Video.AssemblyRequest where
  mediaType := mediaTypeText request.mediaType
  outputFormat := request.outputFormat
  params := JsonOf.mapMembers PyFloat.ofStored request.params

/-- The request goes to the assembly generator. -/
def IsAssembly (request : GenerationRequest) : Prop :=
  request.mediaType = .video ∧ request.taskType = some "assembly"

instance (request : GenerationRequest) : Decidable (IsAssembly request) := inferInstanceAs (Decidable (_ ∧ _))

/-! ## Timelines within a project -/

section
variable {lib : ValueLibrary} {assets : AssetId → Option Asset} {projectId : Option String}

/-- An entry names an asset of the project. -/
def NamesOwn (assets : AssetId → Option Asset) (projectId : Option String) (members : Dict Value) : Prop :=
  ∃ id asset, Video.item members "asset_id" = .str id ∧ assets id = some asset ∧ asset.projectId = projectId

/-- The entries of a track, if it is there, name assets of the project. -/
def OwnTrack (assets : AssetId → Option Asset) (projectId : Option String) (tracks : Dict Value) (track : String) :
    Prop :=
  ∀ entries, Dict.get? tracks track = some (.arr entries) →
    ∀ members ∈ Video.mappings entries, NamesOwn assets projectId members

theorem namesOwn_of_resolveEntry {track : String} {entry : Value × ℕ} {members : Dict Value}
    (h : resolveEntry assets projectId track entry = .ok (.obj members)) : NamesOwn assets projectId members := by
  unfold resolveEntry at h
  split at h
  next old hold =>
    simp only at h
    split at h
    · cases h
    · split at h
      · cases h
      next asset hasset =>
        split at h
        · cases h
        next hproject =>
          obtain rfl := JsonOf.obj.inj (Except.ok.inj h)
          refine ⟨_, asset, ?_, hasset, not_not.mp hproject⟩
          rw [Video.item, Dict.get?_set_self]
          rfl
  next hnot =>
    have heq := Except.ok.inj h
    exact absurd heq (hnot members)

theorem ownTrack_of_resolveTrack {tracks tracks' : Dict Value} {track : String}
    (h : resolveTrack assets projectId tracks track = .ok tracks') :
    OwnTrack assets projectId tracks' track ∧ ∀ other, other ≠ track → Dict.get? tracks' other = tracks.get? other := by
  unfold resolveTrack at h
  split at h
  next entries _ =>
    obtain ⟨resolved, hresolved, rfl⟩ := ok_of_map h
    refine ⟨fun entries' hentries members hmem => ?_, fun other hother => Dict.get?_set_ne _ _ (Ne.symm hother)⟩
    rw [Dict.get?_set_self] at hentries
    obtain rfl := JsonOf.arr.inj (Option.some.inj hentries)
    obtain ⟨value, hvalue, hobj⟩ := List.mem_filterMap.mp hmem
    obtain ⟨entry, -, hentry⟩ := Video.mem_of_mapM hresolved value hvalue
    cases value with
    | obj old =>
      obtain rfl : old = members := Option.some.inj hobj
      exact namesOwn_of_resolveEntry hentry
    | _ => cases hobj
  next hnot =>
    obtain rfl := Except.ok.inj h
    exact ⟨fun entries hentries => absurd hentries (hnot entries), fun _ _ => rfl⟩

/-- The tracks that have been checked stay as they are while others are. -/
theorem ownTracks_of_foldlM {names : List String} (hnodup : names.Nodup) {tracks tracks' : Dict Value}
    (h : names.foldlM (resolveTrack assets projectId) tracks = .ok tracks') :
    (∀ name ∈ names, OwnTrack assets projectId tracks' name) ∧
      ∀ name ∉ names, Dict.get? tracks' name = tracks.get? name := by
  induction names generalizing tracks with
  | nil =>
    obtain rfl : tracks = tracks' := Except.ok.inj h
    exact ⟨nofun, fun _ _ => rfl⟩
  | cons name rest ih =>
    rw [List.foldlM_cons] at h
    obtain ⟨next, hnext, hrest⟩ := bind_eq_ok.mp h
    obtain ⟨hown, hkept⟩ := ownTrack_of_resolveTrack hnext
    obtain ⟨howns, hkepts⟩ := ih (List.nodup_cons.mp hnodup).2 hrest
    refine ⟨List.forall_mem_cons.mpr ⟨?_, howns⟩, fun other hother => ?_⟩
    · unfold OwnTrack
      rw [hkepts name (List.nodup_cons.mp hnodup).1]
      exact hown
    · rw [List.mem_cons, not_or] at hother
      rw [hkepts other hother.2, hkept other hother.1]

/-- The tracks of a timeline, if it has any. -/
def timelineTracks (timeline : Value) : Dict Value :=
  (Video.item (timeline.obj?.getD []) "tracks").obj?.getD []

/-- The tracks of a timeline name assets of the project. -/
def OwnTimeline (assets : AssetId → Option Asset) (projectId : Option String) (timeline : Value) : Prop :=
  ∀ name ∈ ["visual", "narration", "music"], OwnTrack assets projectId (timelineTracks timeline) name

theorem ownTrack_nil (track : String) : OwnTrack assets projectId [] track := nofun

theorem ownTimeline_of_resolveTimelineAssets {timeline resolved : Value}
    (h : resolveTimelineAssets assets projectId timeline = .ok resolved) : OwnTimeline assets projectId resolved := by
  unfold resolveTimelineAssets at h
  split at h
  next members _ =>
    split at h
    next tracks _ =>
      obtain ⟨checked, hchecked, rfl⟩ := ok_of_map h
      have htracks : timelineTracks (.obj (Dict.set members "tracks" (.obj checked))) = checked := by
        change (Video.item (Dict.set members "tracks" (.obj checked)) "tracks").obj?.getD [] = checked
        rw [Video.item, Dict.get?_set_self]
        rfl
      unfold OwnTimeline
      rw [htracks]
      exact (ownTracks_of_foldlM (by decide) hchecked).1
    next hnot =>
      obtain rfl := Except.ok.inj h
      have htracks : timelineTracks (.obj members) = [] := by
        change (Video.item members "tracks").obj?.getD [] = []
        unfold Video.item
        cases hget : Dict.get? members "tracks" with
        | none => rfl
        | some value =>
          cases value with
          | obj tracks => exact absurd hget (hnot tracks)
          | _ => rfl
      intro name _
      rw [htracks]
      exact ownTrack_nil name
  next value hnot =>
    obtain rfl := Except.ok.inj h
    intro name _
    cases hvalue : stripTimelinePaths timeline with
    | obj members => exact absurd hvalue (hnot members)
    | _ => exact ownTrack_nil name

/-! ## What the generator opens -/

theorem item_mapMembers (f : PyFloat → Option PyFloat) (members : Dict Value) (key : String) :
    Video.item (JsonOf.mapMembers f members) key = JsonOf.mapFloats f (Video.item members key) := by
  rw [Video.item, Video.item, JsonOf.get?_mapMembers]
  cases Dict.get? members key <;> rfl

/-- Entries that a track has are those of a list. -/
theorem exists_arr_of_mem_listOr {value : Value} {members : Dict Value}
    (h : members ∈ Video.mappings ((Video.listOr value).getD [])) :
    ∃ entries, value = .arr entries ∧ members ∈ Video.mappings entries := by
  unfold Video.listOr Video.orElse at h
  by_cases htruthy : value.truthy
  · rw [if_pos htruthy] at h
    split at h
    next entries => exact ⟨entries, rfl, h⟩
    next => cases h
  · rw [if_neg htruthy] at h
    cases h

theorem members_mapFloats (f : PyFloat → Option PyFloat) (value : Value) :
    (JsonOf.mapFloats f value).obj?.getD [] = JsonOf.mapMembers f (value.obj?.getD []) := by
  rw [JsonOf.obj?_mapFloats]
  cases value.obj? <;> rfl

theorem arr_of_mapFloats {f : PyFloat → Option PyFloat} {value : Value} {entries : List Value}
    (h : JsonOf.mapFloats f value = .arr entries) :
    ∃ old, value = .arr old ∧ entries = old.map (JsonOf.mapFloats f) := by
  cases value with
  | arr old =>
    rw [JsonOf.mapFloats, JsonOf.mapItems_eq] at h
    exact ⟨old, rfl, (JsonOf.arr.inj h).symm⟩
  | float x =>
    rw [JsonOf.mapFloats] at h
    cases hx : f x <;> rw [hx] at h <;> cases h
  | _ => cases h

theorem NamesOwn.mapMembers {members : Dict Value} (h : NamesOwn assets projectId members)
    (f : PyFloat → Option PyFloat) : NamesOwn assets projectId (JsonOf.mapMembers f members) := by
  obtain ⟨id, asset, hid, hasset⟩ := h
  refine ⟨id, asset, ?_, hasset⟩
  rw [item_mapMembers, hid]
  rfl

/-- The media of a request are those of the tracks of its timeline, also where it is stored. -/
theorem namesOwn_of_mem_track {request : Video.AssemblyRequest} {timeline : Value} {f : PyFloat → Option PyFloat}
    (htimeline : Video.item request.params "timeline" = JsonOf.mapFloats f timeline)
    (hown : OwnTimeline assets projectId timeline) {name : String} (hname : name ∈ ["visual", "narration", "music"])
    {members : Dict Value} (hmem : members ∈ Video.mappings (request.track name)) :
    NamesOwn assets projectId members := by
  obtain ⟨entries, hentries, hmem⟩ := exists_arr_of_mem_listOr hmem
  have htracks : request.tracks = JsonOf.mapMembers f (timelineTracks timeline) := by
    rw [Video.AssemblyRequest.tracks, Video.AssemblyRequest.timeline, htimeline, members_mapFloats, item_mapMembers,
      members_mapFloats, timelineTracks]
  rw [htracks, item_mapMembers] at hentries
  obtain ⟨old, hold, rfl⟩ := arr_of_mapFloats hentries
  have hget : Dict.get? (timelineTracks timeline) name = some (.arr old) := by
    unfold Video.item at hold
    cases hvalue : Dict.get? (timelineTracks timeline) name with
    | none => rw [hvalue] at hold; cases hold
    | some value => rw [hvalue] at hold; exact congrArg some hold
  obtain ⟨value, hvalue, hobj⟩ := List.mem_filterMap.mp hmem
  obtain ⟨entry, hentry, rfl⟩ := List.mem_map.mp hvalue
  rw [JsonOf.obj?_mapFloats, Option.map_eq_some_iff] at hobj
  obtain ⟨oldMembers, hold, rfl⟩ := hobj
  exact (hown name hname old hget oldMembers (List.mem_filterMap.mpr ⟨entry, hentry, hold⟩)).mapMembers f

/-- The generator finds the file of an asset that an entry names, and nothing else. -/
theorem exists_asset_of_resolveSource {host : Video.AssemblyHost} {members : Dict Value} {path : String}
    (hown : NamesOwn assets projectId members)
    (h : Video.resolveSource lib host (assemblyGenerator assets) members = some path) :
    ∃ id asset, assets id = some asset ∧ asset.path = path ∧ asset.projectId = projectId := by
  obtain ⟨id, asset, hid, hasset, hproject⟩ := hown
  refine ⟨id, asset, hasset, ?_, hproject⟩
  unfold Video.resolveSource at h
  simp only [assemblyGenerator, hid, lib.str_str, hasset, Option.map_some, Bool.false_and, Bool.false_eq_true,
    if_false] at h
  split at h
  next found hfound =>
    obtain rfl := Option.some.inj h
    obtain ⟨hfound, -⟩ := Option.filter_eq_some_iff.mp hfound
    split at hfound
    · exact Option.some.inj (Option.filter_eq_some_iff.mp hfound).1
    · cases hfound
  next => cases h

/-- The assembly of a request stays within a project. -/
def OwnMedia (assets : AssetId → Option Asset) (projectId : Option String) (request : GenerationRequest) : Prop :=
  ∀ name ∈ ["visual", "narration", "music"], ∀ members ∈ Video.mappings ((assemblyRequest request).track name),
    NamesOwn assets projectId members

theorem OwnMedia.exists_asset {request : GenerationRequest} (h : OwnMedia assets projectId request)
    {text : TextLibrary} {host : Video.AssemblyHost} {path : String}
    (hpath : path ∈ Video.openedFiles lib text host (assemblyGenerator assets) (assemblyRequest request)) :
    ∃ id asset, assets id = some asset ∧ asset.path = path ∧ asset.projectId = projectId := by
  obtain ⟨name, hname, members, hmem, hsource⟩ := Video.exists_of_mem_openedFiles hpath
  exact exists_asset_of_resolveSource (h name hname members hmem) hsource

/-- A timeline that is stored with a request is within the project, if it was so before. -/
theorem ownMedia_of_timeline {request : GenerationRequest} {timeline : Value}
    (htimeline : Dict.get? request.params "timeline" = some (storedValue timeline))
    (hown : OwnTimeline assets projectId timeline) : OwnMedia assets projectId request := by
  have hitem : Video.item (assemblyRequest request).params "timeline" =
      JsonOf.mapFloats (fun x => (PyFloat.rat? x).bind PyFloat.ofStored) timeline := by
    rw [Video.item, assemblyRequest, JsonOf.get?_mapMembers, htimeline]
    exact JsonOf.mapFloats_mapFloats PyFloat.rat? PyFloat.ofStored timeline
  intro name hname members hmem
  exact namesOwn_of_mem_track hitem hown hname hmem

theorem OwnMedia.of_params {request request' : GenerationRequest} (h : OwnMedia assets projectId request)
    (hparams : request'.params = request.params) : OwnMedia assets projectId request' := by
  have htrack (name : String) : (assemblyRequest request').track name = (assemblyRequest request).track name := by
    simp only [assemblyRequest, Video.AssemblyRequest.track, Video.AssemblyRequest.tracks,
      Video.AssemblyRequest.timeline, hparams]
  intro name hname members hmem
  rw [htrack] at hmem
  exact h name hname members hmem

end

/-! ## Jobs within their projects -/

/-- Every assembly that is queued, and every one that was, stays within its project. -/
def Studio.Confined (s : Studio) : Prop :=
  ∀ id job, s.job? id = some job → IsAssembly job.request → OwnMedia s.asset? job.projectId job.request

section
variable {checks : Checks} {text : TextLibrary} {s s' : Studio} {id : JobId}

theorem Studio.Confined.of_stage (h : s.Confined) (hstage : s'.stage = s.stage) : s'.Confined := by
  unfold Confined Studio.job? Studio.asset? at *
  rwa [hstage]

/-- A job is created with a row for its request, or nothing happens. -/
theorem confined_createJob (h : s.Confined) {request : GenerationRequest} {project : Option ProjectId}
    (hown : IsAssembly request → OwnMedia s.asset? project request) {answer : Except Exc Unit}
    (hcreate : createJob checks id request project s = (answer, s')) : s'.Confined := by
  unfold createJob at hcreate
  split at hcreate
  · obtain ⟨-, rfl⟩ := Prod.mk.inj hcreate
    exact h
  · split at hcreate
    · obtain ⟨-, rfl⟩ := Prod.mk.inj hcreate
      exact h
    · obtain ⟨-, rfl⟩ := Prod.mk.inj hcreate
      intro other job hjob hassembly
      rw [Studio.job?_setRow] at hjob
      split at hjob
      · obtain rfl := Option.some.inj hjob
        exact hown hassembly
      · exact h other job hjob hassembly

theorem Studio.Confined.elim_addJob (h : s.Confined) (project : Option ProjectId) (id : JobId) :
    (project.elim s fun project => s.addJob project id).Confined := by
  cases project with
  | none => exact h
  | some project => exact h.of_stage Studio.stage_editProject

theorem confined_createBoundJob (h : s.Confined) {request : GenerationRequest} {project : Option ProjectId}
    (hown : IsAssembly request → OwnMedia s.asset? project request) {answer : Except RouteError Unit}
    (hcreate : createBoundJob checks id request project s = (answer, s')) : s'.Confined := by
  unfold createBoundJob at hcreate
  cases hjob : createJob checks id request project s with
  | mk created after =>
    have hafter := confined_createJob h hown hjob
    rw [hjob] at hcreate
    cases created with
    | error e =>
      obtain ⟨-, rfl⟩ := Prod.mk.inj hcreate
      exact hafter
    | ok _ =>
      obtain ⟨-, rfl⟩ := Prod.mk.inj hcreate
      exact hafter.elim_addJob project id

theorem eq_of_resolveProjectId {detail : String} {project resolved : Option ProjectId}
    (h : resolveProjectId detail project s = .ok resolved) : resolved = project := by
  unfold resolveProjectId at h
  split at h
  · exact (Except.ok.inj h).symm
  · split at h
    · exact (Except.ok.inj h).symm
    · cases h

theorem confined_enqueueGeneration (h : s.Confined) {request : GenerationRequest} {project : Option ProjectId}
    (hown : IsAssembly request → OwnMedia s.asset? project request) :
    (enqueueGeneration checks id request project s).2.Confined := by
  unfold enqueueGeneration
  split
  · exact h
  next resolved hresolved =>
    rw [← eq_of_resolveProjectId hresolved] at hown
    split
    next hcreate => exact confined_createBoundJob h hown hcreate
    next hcreate => exact confined_createBoundJob h hown hcreate

theorem confined_generateAssembly (h : s.Confined) (id : JobId) (request : GenerateAssemblyRequest) :
    (generateAssembly checks id request s).2.Confined := by
  unfold generateAssembly
  split
  · exact h
  next prepared hprepared =>
    obtain ⟨project, hproject, hprepared⟩ := bind_eq_ok.mp hprepared
    obtain ⟨timeline, htimeline, hprepared⟩ := bind_eq_ok.mp hprepared
    obtain rfl := Except.ok.inj hprepared
    refine confined_enqueueGeneration h fun _ => ?_
    rw [eq_of_resolveProjectId hproject] at htimeline
    exact ownMedia_of_timeline (Dict.get?_set_self ..) (ownTimeline_of_resolveTimelineAssets htimeline)

theorem confined_queueAssembly (h : s.Confined) {job : AssemblyJob}
    (hown : OwnMedia s.asset? job.projectId job.toGenerationRequest) : (queueAssembly checks id job s).2.Confined := by
  unfold queueAssembly
  split
  next hcreate => exact confined_createJob h (fun _ => hown) hcreate
  next hcreate => exact (confined_createJob h (fun _ => hown) hcreate).elim_addJob job.projectId id

theorem ownMedia_of_assembleStory {stories : Stories} {assets : AssetId → Option Asset} {storyId : StoryId}
    {request : AssembleStoryRequest} {job : AssemblyJob}
    (h : assembleStory text stories assets storyId request = .ok job) :
    OwnMedia assets job.projectId job.toGenerationRequest := by
  obtain ⟨story, -, h⟩ := bind_eq_ok.mp h
  obtain ⟨timeline, -, h⟩ := bind_eq_ok.mp h
  obtain ⟨resolved, hresolved, h⟩ := bind_eq_ok.mp h
  obtain rfl := Except.ok.inj h
  exact ownMedia_of_timeline rfl (ownTimeline_of_resolveTimelineAssets hresolved)

/-- A rerun that keeps params and project is within the project that its source is within. -/
theorem confined_rerunJob (h : s.Confined) (source : JobId) {request : RerunJobRequest}
    (hparams : request.params = none)
    (hproject : request.projectId = none) : (rerunJob checks source id request s).2.Confined := by
  unfold rerunJob
  split
  · exact h
  next sourceJob hsource =>
    split
    · exact h
    next project hresolved =>
      have hsame : project = sourceJob.projectId := by
        rw [eq_of_resolveProjectId hresolved, hproject]
        rfl
      have hown : IsAssembly (rerunRequest sourceJob.request request) →
          OwnMedia s.asset? project (rerunRequest sourceJob.request request) := by
        intro hassembly
        rw [hsame]
        refine (h source sourceJob hsource hassembly).of_params ?_
        simp only [rerunRequest, hparams, Option.getD_none]
      split
      next hcreate => exact confined_createBoundJob h hown hcreate
      next hcreate => exact confined_createBoundJob h hown hcreate

/-- What is asked for is an assembly only through the routes that resolve its timeline. -/
def QueueRequest.Plain : QueueRequest → Prop
  | .generate _ request _ => ¬IsAssembly request
  | .rerun _ _ request => request.params = none ∧ request.projectId = none
  | _ => True

instance (request : QueueRequest) : Decidable request.Plain := by
  cases request <;> unfold QueueRequest.Plain <;> infer_instance

theorem confined_queue (h : s.Confined) {request : QueueRequest} (hplain : request.Plain) :
    (s.queue checks text request).2.Confined := by
  cases request with
  | generateAssembly id request => exact confined_generateAssembly h id request
  | assembleStory id storyId request =>
    simp only [Studio.queue]
    split
    · exact h
    next job hjob => exact confined_queueAssembly h (ownMedia_of_assembleStory hjob)
  | generate id request project => exact confined_enqueueGeneration h fun hassembly => absurd hassembly hplain
  | rerun source id request => exact confined_rerunJob h source hplain.1 hplain.2

theorem confined_queueAll (h : s.Confined) {requests : List QueueRequest}
    (hplain : ∀ request ∈ requests, request.Plain) : (s.queueAll checks text requests).Confined := by
  induction requests generalizing s with
  | nil => exact h
  | cons request rest ih =>
    obtain ⟨hfirst, hrest⟩ := List.forall_mem_cons.mp hplain
    exact ih (confined_queue h hfirst) hrest

end

/-- Where no assembly was queued before, every assembly that these requests queue opens files of its own
project only, on any host, as long as the assets stay as they are. -/
theorem openedFiles_within_project (checks : Checks) (text : TextLibrary) {s : Studio} {requests : List QueueRequest}
    (hfresh : ∀ id job, s.job? id = some job → ¬IsAssembly job.request)
    (hplain : ∀ request ∈ requests, request.Plain) {id : JobId} {job : JobRecord}
    (hjob : (s.queueAll checks text requests).job? id = some job) (hassembly : IsAssembly job.request)
    (lib : ValueLibrary) (rendering : TextLibrary) (host : Video.AssemblyHost) :
    ∀ path ∈ Video.openedFiles lib rendering host (assemblyGenerator (s.queueAll checks text requests).asset?)
        (assemblyRequest job.request),
      ∃ assetId asset, (s.queueAll checks text requests).asset? assetId = some asset ∧ asset.path = path ∧
        asset.projectId = job.projectId := by
  have hconfined : s.Confined := fun other row hrow hassembly => absurd hassembly (hfresh other row hrow)
  intro path hpath
  exact (confined_queueAll hconfined hplain id job hjob hassembly).exists_asset hpath

/-- A film of one still, with the still. -/
def stillStudio : Studio :=
  let stories := Stories.empty.save { stillStory with projectId := some "film" }
  let studio := (createProject "film" { name := "Film" } (Studio.fresh stories)).2
  { studio with stage := { studio.stage with shelves := { studio.stage.shelves with
      assets := AList.singleton "asset_1" {
        id := "asset_1", jobId := 9, projectId := some "film", mediaType := .image, title := "", prompt := ""
        modelId := "", path := "asset_1.png", createdAt := 0, updatedAt := 0 } } } }

/-- It is assembled, and the job is run again. -/
def stillRequests : List QueueRequest := [.assembleStory 1 "story_1" {}, .rerun 1 2 {}]

theorem openedFiles_stillStudio :
    ∃ job, (stillStudio.queueAll plainChecks plainLibrary stillRequests).job? 2 = some job ∧
      ∀ path ∈ Video.openedFiles Video.plainValues plainLibrary Video.plainHost
          (assemblyGenerator (stillStudio.queueAll plainChecks plainLibrary stillRequests).asset?)
          (assemblyRequest job.request),
        ∃ assetId asset, (stillStudio.queueAll plainChecks plainLibrary stillRequests).asset? assetId = some asset ∧
          asset.path = path ∧ asset.projectId = job.projectId := by
  have hqueued : ((stillStudio.queueAll plainChecks plainLibrary stillRequests).job? 2).map
      (fun job => decide (IsAssembly job.request)) = some true := by decide +kernel
  obtain ⟨job, hjob, hassembly⟩ := Option.map_eq_some_iff.mp hqueued
  have hfresh : ∀ id job, stillStudio.job? id = some job → ¬IsAssembly job.request := by
    intro id job hrow
    have hnone : stillStudio.job? id = none := rfl
    rw [hnone] at hrow
    cases hrow
  exact ⟨job, hjob, openedFiles_within_project plainChecks plainLibrary hfresh (by decide) hjob
    (of_decide_eq_true hassembly) Video.plainValues plainLibrary Video.plainHost⟩

end CreativeStudio.Routes
