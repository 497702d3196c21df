import KernalApi.Worker.Protocol

/-!
# Codecs of the protocol's fields

Each writer of a field agrees with its reader on every value, with one
exception: a status code equal to the value that stands for an absent one is not
read back.
-/

namespace KernalApi.Worker

open KernalApi.Std ExecuteMetadata

variable {bytes : List UInt8} {byte : UInt8} {units : List UInt16}
  {follows : List UInt8 → Prop} {target : Target}

theorem getWord_eq {α : Type} {width : Nat} {ofNat : Nat → α} (bytes : List UInt8)
    (counted : bytes.length = width) : getWord width ofNat bytes = .ok (ofNat (leValue bytes)) :=
  if_pos counted

theorem codec_u8 : Codec follows (fun _ => True) putU8 takeU8 := by
  have word : Codec follows (fun _ => True)
      (fun value => (putBytes (leBytes 1 value.toNat) : Put ProtocolError Unit)) takeU8 :=
    .word .truncated (fun value => value.toNat_lt) (fun _ => UInt8.ofNat_toNat)
      (fun _ small => UInt8.toNat_ofNat_of_lt' small) getWord_eq
  have same : putU8 = fun value => putBytes (leBytes 1 value.toNat) := by
    funext value
    simp [putU8, leBytes]
  rw [same]
  exact word

theorem codec_u16 : Codec follows (fun _ => True) putU16 takeU16 :=
  .word .truncated (fun value => value.toNat_lt) (fun _ => UInt16.ofNat_toNat)
    (fun _ small => UInt16.toNat_ofNat_of_lt' small) getWord_eq

theorem codec_u32 : Codec follows (fun _ => True) putU32 takeU32 :=
  .word .truncated (fun value => value.toNat_lt) (fun _ => UInt32.ofNat_toNat)
    (fun _ small => UInt32.toNat_ofNat_of_lt' small) getWord_eq

theorem codec_u64 : Codec follows (fun _ => True) putU64 takeU64 :=
  .word .truncated (fun value => value.toNat_lt) (fun _ => UInt64.ofNat_toNat)
    (fun _ small => UInt64.toNat_ofNat_of_lt' small) getWord_eq

theorem codec_i32 : Codec follows (fun _ => True) putI32 takeI32 := by
  have fits : ∀ value : Int32, value.toUInt32.toNat < 256 ^ 4 := fun value =>
    value.toUInt32.toNat_lt
  refine .word .truncated fits ?_ ?_ getWord_eq
  · intro value
    rw [UInt32.ofNat_toNat]
    rfl
  · intro number small
    exact UInt32.toNat_ofNat_of_lt' small

/-- A string is determined by its bytes. -/
theorem fromUtf8_asBytes (text : String) : fromUtf8 (asBytes text) = .ok text := by
  have same : (⟨(asBytes text).toArray⟩ : ByteArray) = text.toByteArray := by simp [asBytes]
  unfold fromUtf8 String.fromUTF8?
  rw [same, dif_pos text.isValidUTF8]
  rfl

theorem asBytes_of_fromUtf8 {text : String}
    (parsed : fromUtf8 bytes = .ok text) : asBytes text = bytes := by
  unfold fromUtf8 String.fromUTF8? at parsed
  by_cases valid : (⟨bytes.toArray⟩ : ByteArray).IsValidUTF8
  · rw [dif_pos valid] at parsed
    cases parsed
    simp [asBytes, String.fromUTF8]
  · rw [dif_neg valid] at parsed
    cases parsed

theorem TerminalKind.tryFrom_code (kind : TerminalKind) :
    TerminalKind.tryFrom kind.code = .ok kind := by
  cases kind <;> rfl

theorem TerminalKind.code_of_tryFrom {kind : TerminalKind}
    (found : TerminalKind.tryFrom byte = .ok kind) : kind.code = byte := by
  apply UInt8.toNat_inj.mp
  unfold TerminalKind.tryFrom at found
  split at found <;> cases found <;> simp [TerminalKind.code, *]

theorem RootOutcome.tryFrom_code (outcome : RootOutcome) :
    RootOutcome.tryFrom outcome.code = .ok outcome := by
  cases outcome <;> rfl

theorem RootOutcome.code_of_tryFrom {outcome : RootOutcome}
    (found : RootOutcome.tryFrom byte = .ok outcome) : outcome.code = byte := by
  apply UInt8.toNat_inj.mp
  unfold RootOutcome.tryFrom at found
  split at found <;> cases found <;> simp [RootOutcome.code, *]

theorem Kind.tryFrom_code (kind : Kind) : Kind.tryFrom kind.code = .ok kind := by
  cases kind <;> rfl

theorem Kind.code_of_tryFrom {kind : Kind}
    (found : Kind.tryFrom byte = .ok kind) : kind.code = byte := by
  apply UInt8.toNat_inj.mp
  unfold Kind.tryFrom at found
  split at found <;> cases found <;> simp [Kind.code, *]

theorem codec_terminalKind :
    Codec follows (fun _ => True) (fun kind : TerminalKind => putU8 kind.code) takeTerminalKind :=
  .parsed codec_u8 (fun kind _ => ⟨trivial, kind.tryFrom_code⟩)
    (fun _ _ _ found => ⟨trivial, TerminalKind.code_of_tryFrom found⟩)

theorem codec_text (length : Nat) :
    Codec follows (fun text => (asBytes text).length = length)
      (fun text => putBytes (asBytes text)) (takeText length) := by
  refine .parsed (.exactly ProtocolError.truncated length) ?_ ?_
  · intro text counted
    exact ⟨counted, fromUtf8_asBytes text⟩
  · intro text bytes counted found
    have same := asBytes_of_fromUtf8 found
    exact ⟨same ▸ counted, same⟩

theorem codec_counters : Codec follows (fun _ => True) putCounters takeCounters := by
  have unrolled : putCounters = (fun counters => do
      putU64 counters.activeRoots
      putU64 counters.liveStores
      putU64 counters.liveInstances
      putU64 counters.activeEpochRegistrations
      putU64 counters.liveThreads
      pure ()) := by
    funext counters
    simp [putCounters]
  rw [unrolled]
  refine .field FinalCounters.activeRoots codec_u64 fun activeRoots _ => ?_
  refine .field FinalCounters.liveStores codec_u64 fun liveStores _ => ?_
  refine .field FinalCounters.liveInstances codec_u64 fun liveInstances _ => ?_
  refine .field FinalCounters.activeEpochRegistrations codec_u64 fun registrations _ => ?_
  refine .field FinalCounters.liveThreads codec_u64 fun liveThreads _ => ?_
  refine .done fun counters => ?_
  cases counters
  simp [and_assoc]

/-- The value written for an absent status code is read as one. -/
theorem statusCode_read (code : Option Int32) (status : Int32) :
    (code ≠ some noStatusCode ∧ code.getD noStatusCode = status) ↔
      code = if status = noStatusCode then none else some status := by
  constructor
  · rintro ⟨present, rfl⟩
    cases code with
    | none => simp
    | some code =>
      have other : code ≠ noStatusCode := fun same => present (congrArg some same)
      simp [other]
  · rintro rfl
    by_cases absent : status = noStatusCode
    · simp [absent]
    · simp [absent]

/-- The one value that is not read back stands for an absent code. -/
theorem codec_detail :
    Codec follows (fun detail => detail.statusCode ≠ some noStatusCode) putDetail takeDetail := by
  refine .field TerminalDetail.rootOutcome (.parsed codec_u8
    (fun outcome _ => ⟨trivial, RootOutcome.tryFrom_code outcome⟩)
    fun _ _ _ found => ⟨trivial, RootOutcome.code_of_tryFrom found⟩) fun rootOutcome _ => ?_
  refine .field TerminalDetail.capacityRejections codec_u32 fun capacity _ => ?_
  refine .field TerminalDetail.closingRejections codec_u32 fun closing _ => ?_
  refine .field TerminalDetail.fuelRejections codec_u32 fun fuel _ => ?_
  refine .field TerminalDetail.epochRejections codec_u32 fun epoch _ => ?_
  refine .lastField (fun detail : TerminalDetail => detail.statusCode.getD noStatusCode) codec_i32
    fun status _ => ?_
  refine .done fun detail => ?_
  obtain ⟨_, _, _, _, _, code⟩ := detail
  have read := statusCode_read code status
  simp only [TerminalDetail.mk.injEq]
  tauto

section Paths

/-- The two bytes of each unit. -/
def wideText (units : List UInt16) : List UInt8 := units.flatMap fun unit => leBytes 2 unit.toNat

/-- The bytes of a path, before any test. -/
def PathBuf.raw : {target : Target} → PathBuf target → List UInt8
  | .unix, path => path
  | .windows _ _, path => wideText path

/-- Whether a path holds the unit that ends a string. -/
def PathBuf.hasNul : {target : Target} → PathBuf target → Bool
  | .unix, path => List.contains path (0 : UInt8)
  | .windows _ _, path => List.contains path (0 : UInt16)

/-- The writer of wide units tests the length before each unit. -/
theorem wideBytes_eq (units : List UInt16) (written : List UInt8) (even : written.length % 2 = 0) :
    wideBytes written units =
      if units.contains 0 = true ∨
          units ≠ [] ∧ maxOutputPathBytes < written.length + 2 * units.length then
        .error .invalidPayload
      else .ok (written ++ wideText units) := by
  induction units generalizing written with
  | nil => simp [wideBytes, wideText]
  | cons unit units ih =>
    have later : (written ++ leBytes 2 unit.toNat).length = written.length + 2 := by simp
    have bound : maxOutputPathBytes = 65536 := rfl
    by_cases stopped : unit = 0 ∨ maxOutputPathBytes ≤ written.length
    · have refused : (unit :: units).contains 0 = true ∨ unit :: units ≠ [] ∧
          maxOutputPathBytes < written.length + 2 * (unit :: units).length := by
        rcases stopped with rfl | full
        · exact .inl (by simp)
        · refine .inr ⟨List.cons_ne_nil _ _, ?_⟩
          simp only [List.length_cons]
          omega
      rw [if_pos refused, wideBytes, if_pos stopped]
    · have nonzero := (not_or.mp stopped).1
      rw [wideBytes, if_neg stopped, ih _ (by omega), later]
      have same : (units.contains 0 = true ∨
            units ≠ [] ∧ maxOutputPathBytes < written.length + 2 + 2 * units.length) ↔
          ((unit :: units).contains 0 = true ∨ unit :: units ≠ [] ∧
            maxOutputPathBytes < written.length + 2 * (unit :: units).length) := by
        cases units with
        | nil => simp [Ne.symm nonzero]; omega
        | cons next units =>
          have grows : written.length + 2 * (units.length + 1 + 1) =
              written.length + 2 + 2 * (units.length + 1) := by omega
          simp [Ne.symm nonzero, grows]
      simp only [same, wideText, List.flatMap_cons, List.append_assoc]

theorem length_wideText (units : List UInt16) : (wideText units).length = 2 * units.length := by
  induction units with
  | nil => rfl
  | cons unit units ih =>
    simp only [wideText, List.flatMap_cons, List.length_append, length_leBytes] at *
    simp only [List.length_cons]
    omega

theorem eq_nil_of_wideText (empty : wideText units = []) : units = [] := by
  have counted := length_wideText units
  rw [empty, List.length_nil] at counted
  exact List.length_eq_zero_iff.mp (by omega)

theorem wideUnits_wideText (units : List UInt16) : wideUnits (wideText units) = units := by
  induction units with
  | nil => rfl
  | cons unit units ih =>
    have bytes : leBytes 2 unit.toNat =
        [UInt8.ofNat unit.toNat, UInt8.ofNat (unit.toNat / 256)] := rfl
    have value : leValue [UInt8.ofNat unit.toNat, UInt8.ofNat (unit.toNat / 256)] = unit.toNat := by
      rw [← bytes]
      exact leValue_leBytes unit.toNat_lt
    have split : wideText (unit :: units) =
        UInt8.ofNat unit.toNat :: UInt8.ofNat (unit.toNat / 256) :: wideText units := rfl
    rw [split, wideUnits, value, UInt16.ofNat_toNat, ih]

theorem wideText_wideUnits (bytes : List UInt8) (even : bytes.length % 2 = 0) :
    wideText (wideUnits bytes) = bytes := by
  -- The recursion consumes two bytes at a time, as `wideUnits` does.
  fun_induction wideUnits bytes with
  | case1 low high bytes ih =>
    have shorter : bytes.length % 2 = 0 := by
      simp only [List.length_cons] at even
      omega
    have small : leValue [low, high] < 2 ^ 16 := by
      simpa using leValue_lt [low, high]
    have split : wideText (UInt16.ofNat (leValue [low, high]) :: wideUnits bytes) =
        leBytes 2 (UInt16.ofNat (leValue [low, high])).toNat ++ wideText (wideUnits bytes) := rfl
    rw [split, UInt16.toNat_ofNat_of_lt' small, ih shorter]
    have whole : leBytes 2 (leValue [low, high]) = [low, high] := leBytes_leValue [low, high]
    rw [whole]
    rfl
  | case2 bytes short =>
    match bytes with
    | [] => rfl
    | low :: high :: rest => exact (short low high rest rfl).elim

theorem wideBytes_nil (units : List UInt16) :
    wideBytes [] units =
      if units.contains 0 = true ∨ maxOutputPathBytes < (wideText units).length then
        .error .invalidPayload
      else .ok (wideText units) := by
  have same : (units ≠ [] ∧ maxOutputPathBytes < ([] : List UInt8).length + 2 * units.length) ↔
      maxOutputPathBytes < (wideText units).length := by
    rw [length_wideText]
    constructor
    · rintro ⟨_, long⟩
      simpa using long
    intro long
    refine ⟨?_, by simpa using long⟩
    rintro rfl
    cases long
  simp only [wideBytes_eq units [] rfl, same, List.nil_append]

theorem widePath_wideText (clean : units.contains 0 = false) :
    widePath (wideText units) = .ok units := by
  have even : ¬ (wideText units).length % 2 ≠ 0 := by
    rw [length_wideText]
    omega
  simp only [widePath, if_neg even, wideUnits_wideText, clean, Bool.false_eq_true, if_false]

theorem wideText_of_widePath
    (parsed : widePath bytes = .ok units) : wideText units = bytes ∧ units.contains 0 = false := by
  unfold widePath at parsed
  split_ifs at parsed with even without
  cases parsed
  exact ⟨wideText_wideUnits bytes (not_not.mp even), Bool.eq_false_iff.mpr without⟩

theorem PathBuf.toBytes_eq (path : PathBuf target) :
    path.toBytes =
      if path.hasNul = true ∨ maxOutputPathBytes < path.raw.length then .error .invalidPayload
      else .ok path.raw :=
  match target, path with
  | .unix, _ => rfl
  | .windows _ _, path => wideBytes_nil path

variable {path : PathBuf target}

theorem PathBuf.ofBytes_raw (clean : path.hasNul = false) :
    PathBuf.ofBytes path.raw = .ok path :=
  match target, path, clean with
  | .unix, _, clean => if_neg (Bool.eq_false_iff.mp clean)
  | .windows _ _, _, clean => widePath_wideText clean

theorem PathBuf.raw_of_ofBytes
    (parsed : PathBuf.ofBytes bytes = .ok path) : path.raw = bytes ∧ path.hasNul = false :=
  match target, path, parsed with
  | .unix, path, parsed => by
      replace parsed : unixPath bytes = .ok path := parsed
      unfold unixPath at parsed
      split_ifs at parsed with without
      cases parsed
      exact ⟨rfl, Bool.eq_false_iff.mpr without⟩
  | .windows _ _, _, parsed => wideText_of_widePath parsed

/-- An empty path is relative. -/
theorem PathBuf.isAbsolute_of_raw (empty : path.raw = []) :
    path.isAbsolute = false :=
  match target, path, empty with
  | .unix, path, empty => by
      subst empty
      rfl
  | .windows _ relative, path, empty => by
      have none : path = [] := eq_nil_of_wideText empty
      subst none
      exact relative

/-- The paths the writer refuses. -/
def PathBuf.Refused (path : PathBuf target) : Prop :=
  path.isAbsolute = false ∨ path.hasNul = true ∨ maxOutputPathBytes < path.raw.length

instance (path : PathBuf target) : Decidable path.Refused := inferInstanceAs (Decidable (_ ∨ _))

theorem PathBuf.raw_length (admitted : ¬ path.Refused) :
    path.raw.length ≤ maxOutputPathBytes ∧
      (UInt32.ofNat path.raw.length).toNat = path.raw.length := by
  obtain ⟨_, others⟩ := not_or.mp admitted
  have short := Nat.le_of_not_lt (not_or.mp others).2
  refine ⟨short, UInt32.toNat_ofNat_of_lt' (Nat.lt_of_le_of_lt short ?_)⟩
  decide

theorem codec_pathText (length : Nat) :
    Codec follows (fun path : PathBuf target => path.hasNul = false ∧ path.raw.length = length)
      (fun path => putBytes path.raw) (takePathText length) := by
  refine .parsed (.exactly ProtocolError.truncated length) ?_ ?_
  · rintro path ⟨clean, counted⟩
    exact ⟨counted, PathBuf.ofBytes_raw clean⟩
  · intro path bytes counted found
    obtain ⟨same, clean⟩ := PathBuf.raw_of_ofBytes found
    exact ⟨⟨clean, same ▸ counted⟩, same⟩

theorem codec_path (length : UInt32) :
    Codec follows
      (fun path : PathBuf target => ¬ path.Refused ∧ UInt32.ofNat path.raw.length = length)
      (fun path => do
        putU8 target.pathTag
        putBytes path.raw)
      (takePath length) := by
  have counted : ∀ path : PathBuf target,
      ¬ path.Refused ∧ UInt32.ofNat path.raw.length = length → path.raw.length = length.toNat := by
    rintro path ⟨admitted, rfl⟩
    exact (PathBuf.raw_length admitted).2.symm
  refine .refuse (fun within => ?_) ?_
  · refine .field (fun _ => target.pathTag) codec_u8 fun tag _ => ?_
    refine .refuse (fun known => ?_) ?_
    · refine .lastField id (codec_pathText length.toNat) (fun path described => ?_) ?_
      · refine .refuse (fun absolute => ?_) ?_
        · refine .done fun other => ?_
          constructor
          · rintro ⟨_, same⟩
            exact same
          rintro rfl
          have short := Nat.le_of_not_lt within
          rw [← described.2] at short
          have admitted : ¬ other.Refused := by
            rintro (relative | nul | long)
            · exact absolute relative
            · exact Bool.eq_false_iff.mp described.1 nul
            · exact Nat.not_lt.mpr short long
          refine ⟨⟨⟨admitted, ?_⟩, (not_not.mp known).symm⟩, rfl⟩
          rw [described.2, UInt32.ofNat_toNat]
        · rintro other ⟨⟨⟨admitted, _⟩, _⟩, rfl⟩
          exact (not_or.mp admitted).1
      · rintro path ⟨described, _⟩
        have clean := (not_or.mp (not_or.mp described.1).2).1
        exact ⟨Bool.eq_false_iff.mpr clean, counted path described⟩
    · rintro path ⟨_, same⟩
      exact fun other => other same.symm
  · intro path described
    have short := (PathBuf.raw_length described.1).1
    rw [counted path described] at short
    exact Nat.not_lt.mpr short

theorem putOutputPath_eq (path : Option (PathBuf target)) :
    putOutputPath path =
      path.elim (putU32 0) (fun path =>
        if path.Refused then throw .invalidPayload
        else do
          putU32 (UInt32.ofNat path.raw.length)
          (do
            putU8 target.pathTag
            putBytes path.raw)) := by
  cases path with
  | none => rfl
  | some path =>
    simp only [putOutputPath, Option.elim_some, PathBuf.toBytes_eq]
    by_cases relative : path.isAbsolute = false
    · rw [if_pos relative, if_pos (.inl relative)]
    rw [if_neg relative]
    by_cases refused : path.hasNul = true ∨ maxOutputPathBytes < path.raw.length
    · rw [if_pos refused, if_pos (.inr refused)]
      rfl
    · have admitted : ¬ path.Refused := not_or.mpr ⟨relative, refused⟩
      rw [if_neg refused, if_neg admitted]
      rfl

theorem codec_outputPath :
    Codec follows (fun _ => True) putOutputPath
      (takeOutputPath : Take ProtocolError (Option (PathBuf target))) := by
  rw [funext putOutputPath_eq]
  refine .optional codec_u32 ?_ fun length _ => codec_path length
  intro path admitted zero
  have counted := (PathBuf.raw_length admitted).2
  rw [zero] at counted
  have empty := List.length_eq_zero_iff.mp counted.symm
  exact admitted (.inl (PathBuf.isAbsolute_of_raw empty))

end Paths

section Urls

/-- The URLs the writer refuses. -/
def RefusedUrl (url : String) : Prop :=
  (asBytes url).isEmpty = true ∨ maxWebviewUrlBytes < (asBytes url).length ∨
    (asBytes url).contains 0 = true

instance (url : String) : Decidable (RefusedUrl url) := inferInstanceAs (Decidable (_ ∨ _))

/-- The reader's tests on the bytes of a URL. -/
def parseUrl (bytes : List UInt8) : Except ProtocolError String := do
  let url ← fromUtf8 bytes
  if bytes.contains 0 then .error .invalidPayload else .ok url

theorem parseUrl_ok {url : String} :
    parseUrl bytes = .ok url ↔ asBytes url = bytes ∧ bytes.contains 0 = false := by
  constructor
  · intro parsed
    obtain ⟨found, text, checked⟩ := Fallible.bind_ok_iff.mp parsed
    split_ifs at checked with clean
    cases checked
    exact ⟨asBytes_of_fromUtf8 text, Bool.eq_false_iff.mpr clean⟩
  · rintro ⟨rfl, clean⟩
    refine Fallible.bind_ok_iff.mpr ⟨url, fromUtf8_asBytes url, ?_⟩
    rw [clean]
    rfl

theorem takeUrl_eq (length : UInt32) :
    takeUrl length =
      if maxWebviewUrlBytes < length.toNat then throw .invalidPayload
      else (do
        let bytes ← takeBytes .invalidPayload length.toNat
        liftM (parseUrl bytes)) := by
  funext input
  have unfolded : takeUrl length input =
      (if maxWebviewUrlBytes < length.toNat ∨ input.length < length.toNat then
        throw ProtocolError.invalidPayload
      else do
        let url ← liftM (fromUtf8 (input.take length.toNat))
        if (input.take length.toNat).contains 0 then throw .invalidPayload
        else do
          set (input.drop length.toNat)
          pure url : Take ProtocolError String) input := rfl
  rw [unfolded]
  by_cases long : maxWebviewUrlBytes < length.toNat
  · rw [if_pos (.inl long), if_pos long]
  rw [if_neg long]
  by_cases short : input.length < length.toNat
  · rw [if_pos (.inr short)]
    simp only [bind, StateT.bind, takeBytes, if_pos short]
    rfl
  rw [if_neg (not_or.mpr ⟨long, short⟩)]
  simp only [bind, StateT.bind, takeBytes, if_neg short, Except.bind, parseUrl]
  cases text : fromUtf8 (input.take length.toNat) with
  | error => rfl
  | ok url =>
    by_cases nul : (input.take length.toNat).contains 0 = true
    all_goals
      simp only [nul]
      rfl

theorem codec_url {length : UInt32} (nonzero : length ≠ 0) :
    Codec follows
      (fun url => ¬ RefusedUrl url ∧ UInt32.ofNat (asBytes url).length = length)
      (fun url => putBytes (asBytes url)) (takeUrl length) := by
  rw [takeUrl_eq]
  have counted : ∀ url, ¬ RefusedUrl url ∧ UInt32.ofNat (asBytes url).length = length →
      (asBytes url).length ≤ maxWebviewUrlBytes ∧ (asBytes url).length = length.toNat := by
    rintro url ⟨admitted, rfl⟩
    have short := Nat.le_of_not_lt (not_or.mp (not_or.mp admitted).2).1
    refine ⟨short, (UInt32.toNat_ofNat_of_lt' (Nat.lt_of_le_of_lt short ?_)).symm⟩
    decide
  refine .refuse (fun within => ?_) ?_
  · refine .parsed (.exactly ProtocolError.invalidPayload length.toNat) ?_ ?_
    · intro url described
      have clean := (not_or.mp (not_or.mp described.1).2).2
      exact ⟨(counted url described).2, parseUrl_ok.mpr ⟨rfl, Bool.eq_false_iff.mpr clean⟩⟩
    · intro url bytes sized found
      obtain ⟨rfl, clean⟩ := parseUrl_ok.mp found
      have same : UInt32.ofNat (asBytes url).length = length := by rw [sized, UInt32.ofNat_toNat]
      refine ⟨⟨?_, same⟩, rfl⟩
      rintro (empty | long | nul)
      · rw [List.isEmpty_iff.mp empty] at same
        exact nonzero same.symm
      · exact within (sized ▸ long)
      · exact Bool.eq_false_iff.mp clean nul
  · intro url described
    obtain ⟨short, same⟩ := counted url described
    exact Nat.not_lt.mpr (same ▸ short)

theorem putWebviewUrl_eq (url : Option String) :
    putWebviewUrl url =
      url.elim (putU32 0) (fun url =>
        if RefusedUrl url then throw .invalidPayload
        else do
          putU32 (UInt32.ofNat (asBytes url).length)
          putBytes (asBytes url)) := by
  cases url with
  | none => rfl
  | some =>
    simp only [putWebviewUrl, Bool.or_eq_true, decide_eq_true_eq, or_assoc]
    rfl

theorem codec_webviewUrl : Codec follows (fun _ => True) putWebviewUrl takeWebviewUrl := by
  rw [funext putWebviewUrl_eq]
  refine .optional codec_u32 ?_ fun length nonzero => codec_url nonzero
  intro url admitted zero
  have short := Nat.le_of_not_lt (not_or.mp (not_or.mp admitted).2).1
  have counted : (UInt32.ofNat (asBytes url).length).toNat = (asBytes url).length :=
    UInt32.toNat_ofNat_of_lt' (Nat.lt_of_le_of_lt short (by decide))
  rw [zero] at counted
  have empty := List.length_eq_zero_iff.mp counted.symm
  exact admitted (.inl (List.isEmpty_iff.mpr empty))

end Urls

/-- Seven numbers in the order of their positions. -/
theorem vector_eta (numbers : Vector UInt64 7) :
    numbers = #v[numbers[0], numbers[1], numbers[2], numbers[3], numbers[4], numbers[5],
      numbers[6]] := by
  ext index bound
  match index, bound with
  | 0, _ | 1, _ | 2, _ | 3, _ | 4, _ | 5, _ | 6, _ => rfl

theorem codec_blobLimits :
    Codec follows (fun _ => True) (fun numbers : Vector UInt64 7 => numbers.toList.forM putU64)
      takeBlobLimits := by
  have unrolled : (fun numbers : Vector UInt64 7 => numbers.toList.forM putU64) =
      (fun numbers => do
        putU64 numbers[0]
        putU64 numbers[1]
        putU64 numbers[2]
        putU64 numbers[3]
        putU64 numbers[4]
        putU64 numbers[5]
        putU64 numbers[6]
        pure ()) := by
    funext numbers
    rw [vector_eta numbers]
    simp
  rw [unrolled]
  refine .field (fun numbers : Vector UInt64 7 => numbers[0]) codec_u64 fun chunk _ => ?_
  refine .field (fun numbers : Vector UInt64 7 => numbers[1]) codec_u64 fun blob _ => ?_
  refine .field (fun numbers : Vector UInt64 7 => numbers[2]) codec_u64 fun sketch _ => ?_
  refine .field (fun numbers : Vector UInt64 7 => numbers[3]) codec_u64 fun live _ => ?_
  refine .field (fun numbers : Vector UInt64 7 => numbers[4]) codec_u64 fun reads _ => ?_
  refine .field (fun numbers : Vector UInt64 7 => numbers[5]) codec_u64 fun writes _ => ?_
  refine .field (fun numbers : Vector UInt64 7 => numbers[6]) codec_u64 fun transfer _ => ?_
  refine .done fun numbers => ?_
  constructor
  · rintro ⟨⟨⟨⟨⟨⟨⟨_, rfl⟩, rfl⟩, rfl⟩, rfl⟩, rfl⟩, rfl⟩, rfl⟩
    exact vector_eta numbers
  · rintro rfl
    simp

theorem putMetadata_eq (value : ExecuteMetadata target) :
    putMetadata value = (do
      putWebviewUrl value.webviewUrl
      putOutputPath value.stagedOutput
      value.blobLimits.toList.forM putU64
      putU64 value.blobProgressIdleTimeoutSecs
      putU64 value.blobProgressIdleTimeoutNanos
      putU64 value.maxWasmStackBytes
      putU64 value.reservedMemoryBytes
      putU64 value.maximumActiveRoots
      putU64 value.totalFuel
      putU64 value.rootFuel
      putU64 value.childFuel
      putU64 value.epochDeadlineMillis
      putU64 value.epochTickMillis
      putU64 value.maximumEpochRegistrations
      putU64 value.maxModuleBytes
      putU32 value.maxSharedMemoryPages
      putU64 value.maxGuestThreads) := by
  simp [putMetadata]

theorem codec_metadata :
    Codec follows (fun _ => True) putMetadata
      (takeMetadata : Take ProtocolError (ExecuteMetadata target)) := by
  rw [funext putMetadata_eq]
  refine .field webviewUrl codec_webviewUrl fun _ _ => ?_
  refine .field stagedOutput codec_outputPath fun _ _ => ?_
  refine .field blobLimits codec_blobLimits fun _ _ => ?_
  refine .field blobProgressIdleTimeoutSecs codec_u64 fun _ _ => ?_
  refine .field blobProgressIdleTimeoutNanos codec_u64 fun _ _ => ?_
  refine .field maxWasmStackBytes codec_u64 fun _ _ => ?_
  refine .field reservedMemoryBytes codec_u64 fun _ _ => ?_
  refine .field maximumActiveRoots codec_u64 fun _ _ => ?_
  refine .field totalFuel codec_u64 fun _ _ => ?_
  refine .field rootFuel codec_u64 fun _ _ => ?_
  refine .field childFuel codec_u64 fun _ _ => ?_
  refine .field epochDeadlineMillis codec_u64 fun _ _ => ?_
  refine .field epochTickMillis codec_u64 fun _ _ => ?_
  refine .field maximumEpochRegistrations codec_u64 fun _ _ => ?_
  refine .field maxModuleBytes codec_u64 fun _ _ => ?_
  refine .field maxSharedMemoryPages codec_u32 fun _ _ => ?_
  refine .lastField maxGuestThreads codec_u64 fun _ _ => ?_
  refine .done fun metadata => ?_
  cases metadata
  simp only [mk.injEq, true_and, and_assoc]

end KernalApi.Worker
