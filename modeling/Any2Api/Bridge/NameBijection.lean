import Any2Api.Bridge.ProjectionGrowth

/-! The tool projection over a whole conversation. Under a fixed profile the
two maps stay inverse to each other, names are never changed, and every name is
one that the target accepts. -/
namespace Any2Api.Bridge

open Any2Api.Json OpenAiChat

/-! Projected names. -/

/-- The characters of a name at the target. -/
def isNameChar (c : Char) : Bool := c.isAlphanum || c = '_' || c = '-'

/-- A text the target takes as the name of a tool. -/
structure AcceptedName (maxChars : Nat) (name : String) : Prop where
  nonempty : name ≠ ""
  alphabet : ∀ c ∈ name.toList, isNameChar c
  bounded : name.length ≤ maxChars

theorem sanitize_alphabet (value : String) : ∀ c ∈ (sanitize value).toList, isNameChar c := by
  unfold sanitize
  dsimp only
  split_ifs with hEmpty
  · exact List.all_eq_true.mp (by decide)
  · intro c hMem
    rw [String.toList_ofList, List.mem_map] at hMem
    obtain ⟨original, -, rfl⟩ := hMem
    split_ifs with hKeep
    · exact hKeep
    · decide

theorem desiredName_alphabet (identity : ToolIdentity) (kind : ChatToolKind) :
    ∀ c ∈ (desiredName identity kind).toList, isNameChar c := by
  have hMark : ∀ c ∈ "__".toList, isNameChar c := List.all_eq_true.mp (by decide)
  have hCustom : ∀ c ∈ "custom__".toList, isNameChar c := List.all_eq_true.mp (by decide)
  have hSearch : ∀ c ∈ "tool_search".toList, isNameChar c := List.all_eq_true.mp (by decide)
  intro c hMem
  cases identity with
  | function name => exact sanitize_alphabet name c hMem
  | custom name =>
    rw [desiredName] at hMem
    split_ifs at hMem
    · exact sanitize_alphabet name c hMem
    · rcases List.mem_append.mp (String.toList_append ▸ hMem) with hMem | hMem
      · exact hCustom c hMem
      · exact sanitize_alphabet name c hMem
  | namespaceFunction space name =>
    simp only [desiredName, String.toList_append, List.mem_append] at hMem
    rcases hMem with (hMem | hMem) | hMem
    · exact sanitize_alphabet space c hMem
    · exact hMark c hMem
    · exact sanitize_alphabet name c hMem
  | namespaceCustom space name =>
    simp only [desiredName, String.toList_append, List.mem_append] at hMem
    rcases hMem with ((hMem | hMem) | hMem) | hMem
    · exact hCustom c hMem
    · exact sanitize_alphabet space c hMem
    · exact hMark c hMem
    · exact sanitize_alphabet name c hMem
  | toolSearch => exact hSearch c hMem

/-- The two digits of a byte. -/
theorem hexDigits_byte (byte : UInt8) : ∀ c ∈ [hexDigit (byte >>> 4), hexDigit (byte &&& 15)],
    isNameChar c ∧ c.utf8Size = 1 := by
  have hAll : ∀ n : Fin 256, [hexDigit (UInt8.ofNat n.val >>> 4),
      hexDigit (.ofNat n.val &&& 15)].all
        (fun c => isNameChar c && decide (c.utf8Size = 1)) = true := by decide +kernel
  have hByte := hAll ⟨byte.toNat, byte.toNat_lt⟩
  rw [UInt8.ofNat_toNat] at hByte
  intro c hMem
  simpa using List.all_eq_true.mp hByte c hMem

theorem utf8ByteSize_ofList_of_ascii {chars : List Char} (h : ∀ c ∈ chars, c.utf8Size = 1) :
    (String.ofList chars).utf8ByteSize = chars.length := by
  induction chars with
  | nil => rfl
  | cons c chars ih =>
    obtain ⟨hFirst, hRest⟩ := List.forall_mem_cons.mp h
    have hSize := ih hRest
    simp only [String.utf8ByteSize_ofList, String.utf8Len_cons] at hSize ⊢
    rw [hSize, hFirst, List.length_cons]

/-- The digest of an identity has at most twelve ASCII characters. -/
theorem digestSuffix_spec (platform : Platform) (input : String) :
    (∀ c ∈ (digestSuffix platform input).toList, isNameChar c) ∧
      (digestSuffix platform input).utf8ByteSize = (digestSuffix platform input).length ∧
      (digestSuffix platform input).length ≤ 12 := by
  generalize hChars : ((platform.sha256 input).take 6).flatMap (fun (byte : UInt8) =>
    [hexDigit (byte >>> 4), hexDigit (byte &&& 15)]) = chars
  have hEach : ∀ c ∈ chars, isNameChar c ∧ c.utf8Size = 1 := by
    intro c hMem
    rw [← hChars, List.mem_flatMap] at hMem
    obtain ⟨byte, -, hMem⟩ := hMem
    exact hexDigits_byte byte c hMem
  have hLength : chars.length ≤ 12 := by
    rw [← hChars, List.length_flatMap]
    simp only [List.length_cons, List.length_nil, List.map_const', List.sum_replicate,
      List.length_take, Nat.nsmul_eq_mul]
    omega
  rw [digestSuffix, hChars]
  refine ⟨?_, ?_, ?_⟩
  · intro c hMem
    rw [String.toList_ofList] at hMem
    exact (hEach c hMem).1
  · rw [utf8ByteSize_ofList_of_ascii fun c hMem => (hEach c hMem).2, String.length_ofList]
  · rw [String.length_ofList]
    exact hLength

variable {platform : Platform} {identity : ToolIdentity}

theorem suffixedName_alphabet {desired : String}
    (hDesired : ∀ c ∈ desired.toList, isNameChar c) (maxChars : Nat) :
    ∀ c ∈ (suffixedName platform identity desired maxChars).toList, isNameChar c := by
  have hTool : ∀ c ∈ "tool".toList, isNameChar c := List.all_eq_true.mp (by decide)
  have hMark : ∀ c ∈ "_".toList, isNameChar c := List.all_eq_true.mp (by decide)
  obtain ⟨hSuffix, -, -⟩ := digestSuffix_spec platform identity.canonical
  intro c hMem
  rw [suffixedName] at hMem
  simp only [String.toList_append, List.mem_append] at hMem
  rcases hMem with (hMem | hMem) | hMem
  · split_ifs at hMem
    · exact hTool c (List.mem_of_mem_take (String.toList_ofList ▸ hMem))
    · exact hDesired c (List.mem_of_mem_take (String.toList_ofList ▸ hMem))
  · exact hMark c hMem
  · exact hSuffix c hMem

theorem suffixedName_length {desired : String} {maxChars : Nat} (hMax : 17 ≤ maxChars) :
    (suffixedName platform identity desired maxChars).length ≤ maxChars := by
  obtain ⟨-, hSize, hSuffix⟩ := digestSuffix_spec platform identity.canonical
  rw [suffixedName, hSize]
  have hCut : ∀ text : String, (String.ofList (text.toList.take
      (maxChars - ((digestSuffix platform identity.canonical).length + 1)))).length ≤
      maxChars - ((digestSuffix platform identity.canonical).length + 1) := by
    intro text
    rw [String.length_ofList]
    exact List.length_take_le _ _
  have hMark : "_".length = 1 := rfl
  rw [String.length_append, String.length_append, hMark]
  split_ifs
  · have := hCut "tool"
    omega
  · have := hCut desired
    omega

/-- The target accepts every projected name. -/
theorem projectName_accepted {kind : ChatToolKind}
    {maxChars : Nat} {collides : String → Bool} {name : String}
    (h : projectName platform identity kind maxChars collides = .ok name) :
    AcceptedName maxChars name := by
  have hNonempty := projectName_ne_empty h
  have hDesired := desiredName_alphabet identity kind
  unfold projectName at h
  dsimp only at h
  split_ifs at h with hLimit hKeep hCollides
  · rw [← Except.ok.inj h] at hNonempty ⊢
    simp only [Bool.and_eq_true, decide_eq_true_eq] at hKeep
    exact ⟨hNonempty, hDesired, hKeep.1.2⟩
  · rw [← Except.ok.inj h] at hNonempty ⊢
    exact ⟨hNonempty, suffixedName_alphabet hDesired maxChars,
      suffixedName_length (Nat.le_of_not_lt hLimit)⟩

/-! What holds after every change. -/

namespace ToolProjection

variable {projection next : ToolProjection} {enabled : List ToolIdentity}

/-- The two maps are inverse to each other under the kinds that the profile
gives to identities, and all names are accepted by the target. -/
structure Bijective (projection : ToolProjection) : Prop where
  forward : ∀ identity name, projection.originalToChat.get? identity = some name →
    projection.chatToOriginal.get? ⟨identity.chatKind projection.profile, name⟩ = some identity
  backward : ∀ tool identity, projection.chatToOriginal.get? tool = some identity →
    projection.originalToChat.get? identity = some tool.name ∧
      identity.chatKind projection.profile = tool.kind
  accepted : ∀ identity name, projection.originalToChat.get? identity = some name →
    AcceptedName projection.profile.toolNameMaxChars.toNat name

theorem fresh_bijective (profile : CompletionsProfile) : (fresh profile).Bijective :=
  ⟨by simp [fresh], by simp [fresh], by simp [fresh]⟩

theorem new_bijective (h : projection.Bijective) :
    (new projection.profile (some projection)).Bijective :=
  ⟨h.forward, h.backward, h.accepted⟩

theorem ensureIdentity_bijective {name : String} (hBijective : projection.Bijective)
    (h : projection.ensureIdentity platform identity = .ok (name, next)) : next.Bijective := by
  have hForward := (ensureIdentity_grows h).consistent hBijective.forward
  unfold ensureIdentity at h
  split at h
  · cases h
    exact hBijective
  · next hNew =>
      split at h
      · cases h
      · next hName =>
          cases h
          refine ⟨hForward, ?_, ?_⟩
          · intro tool other hFound
            simp only [ProjectionFields.allocate, OrderedMap.get?_insert] at hFound ⊢
            split_ifs at hFound with hTool
            · cases hFound
              simp [hTool]
            · obtain ⟨hOld, hKind⟩ := hBijective.backward tool other hFound
              have hOther : other ≠ identity := by
                rintro rfl
                rw [hNew] at hOld
                cases hOld
              rw [if_neg hOther]
              exact ⟨hOld, hKind⟩
          · intro other found hFound
            simp only [ProjectionFields.allocate, OrderedMap.get?_insert] at hFound
            split_ifs at hFound
            · cases hFound
              exact projectName_accepted hName
            · exact hBijective.accepted other found hFound

theorem Changes.bijective
    (h : Changes platform projection enabled next) (hBijective : projection.Bijective) :
    next.Bijective := by
  induction h with
  | refl projection => exact hBijective
  | ensure h => exact ensureIdentity_bijective hBijective h
  | register projection identity | enable projection identity name definition h =>
    exact ⟨hBijective.forward, hBijective.backward, hBijective.accepted⟩
  | trans _ _ ih ihMore => exact ihMore (ih hBijective)

/-- A tool of the target that stands for an identity. -/
def Names (projection : ToolProjection) (identity : ToolIdentity) (tool : ChatTool) : Prop :=
  projection.originalToChat.get? identity = some tool.name ∧
    identity.chatKind projection.profile = tool.kind

theorem Changes.enabled_named (h : Changes platform projection enabled next) :
    ∀ identity ∈ enabled, ∃ tool, next.Names identity tool := by
  induction h with
  | refl | ensure | register => simp
  | enable projection identity name definition h =>
    intro other hOther
    rw [List.mem_singleton.mp hOther]
    exact ⟨⟨_, name⟩, h, rfl⟩
  | trans _ hMore ih ihMore =>
    intro identity hMem
    rcases List.mem_append.mp hMem with hFirst | hSecond
    · obtain ⟨tool, hName, hKind⟩ := ih identity hFirst
      exact ⟨tool, hMore.grows.names _ _ hName, hMore.grows.profile ▸ hKind⟩
    · exact ihMore identity hSecond

/-- The active tools are those that were active and those that were enabled. -/
theorem Changes.mem_active (h : Changes platform projection enabled next) (tool : ChatTool) :
    tool ∈ next.active ↔
      tool ∈ projection.active ∨ ∃ identity ∈ enabled, next.Names identity tool := by
  induction h with
  | refl => simp
  | @ensure projection next identity name h =>
    have hSame : next.active = projection.active := by
      unfold ensureIdentity at h
      split at h
      · cases h
        rfl
      · split at h
        · cases h
        · cases h
          rfl
    simp [hSame]
  | register projection identity => simp [registerDeferred]
  | enable projection identity name definition h =>
    obtain ⟨kind, other⟩ := tool
    simp only [ToolProjection.enable, Finset.mem_insert, ChatTool.mk.injEq, List.mem_singleton,
      exists_eq_left, Names]
    rw [h, Option.some.injEq]
    constructor
    · rintro (⟨rfl, rfl⟩ | hOld)
      · exact .inr ⟨rfl, rfl⟩
      · exact .inl hOld
    · rintro (hOld | ⟨rfl, rfl⟩)
      · exact .inr hOld
      · exact .inl ⟨rfl, rfl⟩
  | @trans first second third enabled more hFirst hMore ih ihMore =>
    rw [ihMore, ih]
    have hKept : ∀ identity ∈ enabled, second.Names identity tool ↔ third.Names identity tool := by
      intro identity hMem
      obtain ⟨found, hFound, hKind⟩ := hFirst.enabled_named identity hMem
      have hLater := hMore.grows.names _ _ hFound
      rw [Names, Names, hFound, hLater, hMore.grows.profile]
    constructor
    · rintro ((hOld | ⟨identity, hMem, hName⟩) | ⟨identity, hMem, hName⟩)
      · exact .inl hOld
      · exact .inr ⟨identity, List.mem_append_left _ hMem, (hKept identity hMem).mp hName⟩
      · exact .inr ⟨identity, List.mem_append_right _ hMem, hName⟩
    · rintro (hOld | ⟨identity, hMem, hName⟩)
      · exact .inl (.inl hOld)
      · rcases List.mem_append.mp hMem with hMem | hMem
        · exact .inl (.inr ⟨identity, hMem, (hKept identity hMem).mpr hName⟩)
        · exact .inr ⟨identity, hMem, hName⟩

/-- A name that is active is read as the identity that it stands for. -/
theorem Bijective.activeIdentity (h : projection.Bijective)
    {tool : ChatTool} (hActive : tool ∈ projection.active)
    (hNames : projection.Names identity tool) :
    projection.activeIdentity tool.kind tool.name = .ok identity := by
  obtain ⟨hName, hKind⟩ := hNames
  have hFound := h.forward identity tool.name hName
  rw [hKind] at hFound
  rw [ToolProjection.activeIdentity, if_pos hActive, hFound]

end ToolProjection

theorem projectSourceCall_changes {projection : ToolProjection}
    {object : Object} {kind : SourceCallKind} {projected : ProjectedSourceCall}
    (h : projectSourceCall platform projection object kind = .ok projected) :
    ToolProjection.Changes platform projection [] projected.projection := by
  obtain ⟨identity, -, h⟩ := Except.of_bind h
  split_ifs at h
  obtain ⟨⟨name, next⟩, hName, h⟩ := Except.of_bind h
  obtain ⟨call, -, h⟩ := Except.of_bind h
  cases h
  exact .ensure hName

/-! The projection over the turns of a conversation. -/

/-- What requests do to their projection, each in the order of its own. -/
inductive ToolOperation where
  /-- The next request derives its projection from the one before it. -/
  | begin
  | configure (tools : Option Value)
  | projectSourceCall (object : Object) (kind : SourceCallKind)
  | activateLoadedTools (tools : List Value)

/-- The projection of the current request, and the identities that the request
has declared so far. -/
structure Turn where
  projection : ToolProjection
  declared : List ToolIdentity

namespace Turn

variable {profile : CompletionsProfile} {turn next : Turn} {operation : ToolOperation}
  {operations : List ToolOperation}

def start (profile : CompletionsProfile) : Turn := ⟨.new profile none, []⟩

def apply (platform : Platform) (profile : CompletionsProfile) (turn : Turn) :
    ToolOperation → Except ProtocolError Turn
  | .begin => .ok ⟨.new profile (some turn.projection), []⟩
  | .configure tools => do
      let projection ← turn.projection.configure platform tools
      .ok ⟨projection, turn.declared ++ ToolProjection.declaredIdentities tools⟩
  | .projectSourceCall object kind => do
      let projected ← projectSourceCall platform turn.projection object kind
      .ok ⟨projected.projection, turn.declared⟩
  | .activateLoadedTools tools => do
      let projection ← turn.projection.activateLoadedTools platform tools
      .ok ⟨projection, turn.declared ++ ToolProjection.loadedIdentities tools⟩

def run (platform : Platform) (profile : CompletionsProfile) (operations : List ToolOperation)
    (turn : Turn) : Except ProtocolError Turn :=
  operations.foldlM (apply platform profile) turn

/-- An operation changes the projection, or begins the next request. -/
theorem apply_eq_ok (h : turn.apply platform profile operation = .ok next) :
    next = ⟨.new profile (some turn.projection), []⟩ ∨
      ∃ enabled, ToolProjection.Changes platform turn.projection enabled next.projection ∧
        next.declared = turn.declared ++ enabled := by
  cases operation with
  | begin =>
    cases h
    exact .inl rfl
  | configure tools =>
    obtain ⟨projection, hProjection, h⟩ := Except.of_bind h
    cases h
    exact .inr ⟨_, ToolProjection.configure_changes hProjection, rfl⟩
  | projectSourceCall object kind =>
    obtain ⟨projected, hProjected, h⟩ := Except.of_bind h
    cases h
    exact .inr ⟨[], projectSourceCall_changes hProjected, (List.append_nil _).symm⟩
  | activateLoadedTools tools =>
    obtain ⟨projection, hProjection, h⟩ := Except.of_bind h
    cases h
    exact .inr ⟨_, ToolProjection.activateLoadedTools_changes hProjection, rfl⟩

/-- What holds of the projection of every request. -/
structure Sound (profile : CompletionsProfile) (turn : Turn) : Prop where
  profile : turn.projection.profile = profile
  bijective : turn.projection.Bijective
  named : ∀ identity ∈ turn.declared, ∃ tool, turn.projection.Names identity tool
  active : ∀ tool, tool ∈ turn.projection.active ↔
    ∃ identity ∈ turn.declared, turn.projection.Names identity tool

theorem start_sound (profile : CompletionsProfile) : (start profile).Sound profile :=
  ⟨rfl, ToolProjection.fresh_bijective profile, by simp [start],
    by simp [start, ToolProjection.new, ToolProjection.fresh]⟩

theorem apply_grows (hProfile : turn.projection.profile = profile)
    (h : turn.apply platform profile operation = .ok next) :
    turn.projection.Grows next.projection := by
  obtain rfl | ⟨enabled, hChanges, -⟩ := apply_eq_ok h
  · rw [← hProfile]
    exact ToolProjection.new_grows turn.projection
  · exact hChanges.grows

section

variable (hSound : turn.Sound profile)
include hSound

theorem apply_sound
    (h : turn.apply platform profile operation = .ok next) : next.Sound profile := by
  have hGrows := apply_grows hSound.profile h
  have hProfile : next.projection.profile = profile := hGrows.profile.trans hSound.profile
  obtain rfl | ⟨enabled, hChanges, hDeclared⟩ := apply_eq_ok h
  · obtain rfl := hSound.profile
    exact ⟨rfl, ToolProjection.new_bijective hSound.bijective, by simp,
      by simp [ToolProjection.new]⟩
  · -- what was declared before stands for the same tool after the change
    have hKept : ∀ identity ∈ turn.declared, ∀ tool,
        turn.projection.Names identity tool ↔ next.projection.Names identity tool := by
      intro identity hMem tool
      obtain ⟨found, hFound, hKind⟩ := hSound.named identity hMem
      rw [ToolProjection.Names, ToolProjection.Names, hFound, hGrows.names _ _ hFound,
        hGrows.profile]
    refine ⟨hProfile, hChanges.bijective hSound.bijective, ?_, ?_⟩
    · intro identity hMem
      rw [hDeclared] at hMem
      rcases List.mem_append.mp hMem with hMem | hMem
      · obtain ⟨tool, hNames⟩ := hSound.named identity hMem
        exact ⟨tool, (hKept identity hMem tool).mp hNames⟩
      · exact hChanges.enabled_named identity hMem
    · intro tool
      rw [hChanges.mem_active, hSound.active, hDeclared]
      simp only [List.mem_append, or_and_right, exists_or]
      refine or_congr_left (exists_congr fun identity => and_congr_right fun hMem => ?_)
      exact hKept identity hMem tool

theorem run_sound (h : run platform profile operations turn = .ok next) : next.Sound profile :=
  Except.foldlM_keeps (fun _ _ _ hNext hState => apply_sound hState hNext) h hSound

theorem run_grows (h : run platform profile operations turn = .ok next) :
    turn.projection.Grows next.projection := by
  induction operations generalizing turn with
  | nil =>
    cases h
    exact .refl _
  | cons operation operations ih =>
    rw [run, List.foldlM_cons] at h
    obtain ⟨middle, hMiddle, h⟩ := Except.of_bind h
    exact (apply_grows hSound.profile hMiddle).trans (ih (apply_sound hSound hMiddle) h)

/-- An active name is read as an identity that the request declared. -/
theorem Sound.activeIdentity_iff (tool : ChatTool) (identity : ToolIdentity) :
    turn.projection.activeIdentity tool.kind tool.name = .ok identity ↔
      identity ∈ turn.declared ∧ turn.projection.Names identity tool := by
  constructor
  · intro h
    have hActive : tool ∈ turn.projection.active := by
      by_contra hInactive
      rw [ToolProjection.activeIdentity, if_neg hInactive] at h
      cases h
    obtain ⟨found, hMem, hNames⟩ := (hSound.active tool).mp hActive
    rw [hSound.bijective.activeIdentity hActive hNames] at h
    cases h
    exact ⟨hMem, hNames⟩
  · rintro ⟨hMem, hNames⟩
    exact hSound.bijective.activeIdentity ((hSound.active tool).mpr ⟨identity, hMem, hNames⟩) hNames

end

/-- Over any number of requests under one profile, the two maps are inverse to
each other, no name is ever changed, every name is one the target accepts, and
the active names are read as the identities that the request declared. -/
theorem run_bijective {first second : List ToolOperation} {later : Turn}
    (hFirst : run platform profile first (start profile) = .ok turn)
    (hSecond : run platform profile second turn = .ok later) :
    (∀ identity kind name,
      turn.projection.originalToChat.get? identity = some name ∧ identity.chatKind profile = kind ↔
        turn.projection.chatToOriginal.get? ⟨kind, name⟩ = some identity) ∧
    (∀ identity name, turn.projection.originalToChat.get? identity = some name →
      later.projection.originalToChat.get? identity = some name) ∧
    (∀ identity name, turn.projection.originalToChat.get? identity = some name →
      AcceptedName profile.toolNameMaxChars.toNat name) ∧
    (∀ tool, tool ∈ turn.projection.active ↔
      ∃ identity, turn.projection.activeIdentity tool.kind tool.name = .ok identity) ∧
    ∀ (tool : ChatTool) identity,
      turn.projection.activeIdentity tool.kind tool.name = .ok identity ↔
        identity ∈ turn.declared ∧ turn.projection.originalToChat.get? identity = some tool.name ∧
          identity.chatKind profile = tool.kind := by
  have hSound := run_sound (start_sound profile) hFirst
  have hGrows := run_grows hSound hSecond
  refine ⟨?_, hGrows.names, ?_, ?_, ?_⟩
  · intro identity kind name
    constructor
    · rintro ⟨hName, rfl⟩
      have hFound := hSound.bijective.forward identity name hName
      rwa [hSound.profile] at hFound
    · intro hFound
      obtain ⟨hName, hKind⟩ := hSound.bijective.backward _ identity hFound
      exact ⟨hName, hSound.profile ▸ hKind⟩
  · intro identity name hName
    have hAccepted := hSound.bijective.accepted identity name hName
    rwa [hSound.profile] at hAccepted
  · intro tool
    rw [hSound.active tool]
    exact exists_congr fun identity => (hSound.activeIdentity_iff tool identity).symm
  · intro tool identity
    rw [hSound.activeIdentity_iff, ToolProjection.Names, hSound.profile]

/-- A request that declares a deferred tool and the client's search, and a
later one that loads what the search found. -/
def searchTools : Value :=
  .array [.obj [("type", .string "function"), ("name", .string "mail.send"),
      ("defer_loading", .bool true)],
    .obj [("type", .string "tool_search"), ("execution", .string "client"),
      ("description", .string "find tools"), ("parameters", .obj [("type", .string "object")])]]

def searchTurns : List ToolOperation × List ToolOperation :=
  ([.configure (some searchTools)],
    [.begin, .configure (some searchTools),
      .activateLoadedTools [.obj [("type", .string "function"), ("name", .string "mail.send"),
        ("defer_loading", .bool true)]]])

/-- A deferred tool keeps its rewritten name when the next turn loads it. -/
theorem run_bijective_search :
    ∃ turn later, run plainPlatform .currentOpenAi searchTurns.1 (start .currentOpenAi) = .ok turn ∧
      run plainPlatform .currentOpenAi searchTurns.2 turn = .ok later ∧
      turn.projection.originalToChat.get? (.function "mail.send") = some "mail_send_" ∧
      later.projection.originalToChat.get? (.function "mail.send") = some "mail_send_" := by
  have hRun : (do
      let turn ← run plainPlatform .currentOpenAi searchTurns.1 (start .currentOpenAi)
      let _ ← run plainPlatform .currentOpenAi searchTurns.2 turn
      pure (turn.projection.originalToChat.get? (.function "mail.send"))) =
      .ok (some "mail_send_") := by
    decide +kernel
  obtain ⟨turn, hTurn, hRun⟩ := Except.of_bind hRun
  obtain ⟨later, hLater, hName⟩ := Except.of_bind hRun
  have hName := Except.ok.inj hName
  exact ⟨turn, later, hTurn, hLater, hName, (run_bijective hTurn hLater).2.1 _ _ hName⟩

end Turn

end Any2Api.Bridge
