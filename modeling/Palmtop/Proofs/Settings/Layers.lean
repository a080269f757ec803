import Palmtop.Proofs.Settings.Format

/-! # Settings in layers

The layers are merged before anything is typed or checked.  So whether settings can be had, and
which, depends on five values: for each setting that of the uppermost layer which has one.  Every
setting reads its own (`Reads`), and `layered` says that `load` succeeds just where all five can be
read and what they make together is `Valid`.

The one thing a merge could spoil is a table over a table, since it keeps parts of the lower one.
Where none lies over another at the five keys (`Layers.Flat`), the merge has at each of them the
uppermost value as it is (`get?_merged`).
-/
namespace Palmtop

/-! ## Choices by name -/

theorem Archive.Compression.ofKey?_eq_some {key : String} {c : Archive.Compression} :
    ofKey? key = some c ↔ key = c.key := by
  constructor
  · intro h
    have hkey := List.find?_some h
    exact (eq_of_beq hkey).symm
  · rintro rfl
    exact ofKey?_key c

theorem WriteMode.ofKey?_eq_some {key : String} {m : WriteMode} :
    ofKey? key = some m ↔ key = m.key := by
  constructor
  · intro h
    have hkey := List.find?_some h
    exact (eq_of_beq hkey).symm
  · rintro rfl
    exact ofKey?_key m

namespace Settings

/-! ## Settings one by one -/

/-- A setting. -/
inductive Key where
  | archiveDir | compression | blockSize | writeMode | prefill
  deriving DecidableEq

/-- The key of a setting in a table. -/
def Key.name : Key → String
  | .archiveDir => "archive_dir"
  | .compression => "compression"
  | .blockSize => "block_size"
  | .writeMode => "write_mode"
  | .prefill => "prefill"

/-- Whether a value is well-typed for a setting and says what these settings have there. -/
def Reads : Key → Value → Settings → Prop
  | .archiveDir, v, c => v = .text c.archiveDir.text
  | .compression, v, c => v.Names c.compression.key
  | .blockSize, v, c => v = .int c.blockSize.toNat
  | .writeMode, v, c => v.Names c.writeMode.key
  | .prefill, v, c => v = .list (c.prefill.map .text)

/-- Whether two settings are the same at a key. -/
def Agree (c c' : Settings) : Key → Prop
  | .archiveDir => c.archiveDir = c'.archiveDir
  | .compression => c.compression = c'.compression
  | .blockSize => c.blockSize = c'.blockSize
  | .writeMode => c.writeMode = c'.writeMode
  | .prefill => c.prefill = c'.prefill

/-- How settings are written at a key. -/
def written (c : Settings) : Key → Value
  | .archiveDir => .text c.archiveDir.text
  | .compression => .text c.compression.key
  | .blockSize => .int c.blockSize.toNat
  | .writeMode => .text c.writeMode.key
  | .prefill => .list (c.prefill.map .text)

variable {c c' : Settings} {value? : String → Option Value}

theorem get?_toFields (c : Settings) (k : Key) : c.toFields.get? k.name = some (c.written k) := by
  cases k <;> simp [toFields, Fields.ofList, Key.name, written]

theorem isTable_written (c : Settings) (k : Key) : (c.written k).isTable = false := by
  cases k <;> rfl

theorem eq_of_agree (h : ∀ k, Agree c c' k) : c = c' := by
  cases c
  cases c'
  cases h .archiveDir
  cases h .compression
  cases h .blockSize
  cases h .writeMode
  cases h .prefill
  rfl

theorem Value.Names.unique {v : Value} {a b : String} (ha : v.Names a) (hb : v.Names b) :
    a = b := by
  rw [← Value.choice?_eq_some] at ha hb
  exact Option.some.inj (ha.symm.trans hb)

/-- A value says one thing of its setting. -/
theorem Reads.agree {k : Key} {v : Value} (h : Reads k v c) (h' : Reads k v c') : Agree c c' k := by
  cases k with
  | archiveDir =>
    obtain ⟨⟨dir⟩, _⟩ := c
    obtain ⟨⟨dir'⟩, _⟩ := c'
    cases h
    cases h'
    rfl
  | compression =>
    have hkey := Value.Names.unique h h'
    rw [← Archive.Compression.ofKey?_eq_some, Archive.Compression.ofKey?_key] at hkey
    exact Option.some.inj hkey
  | blockSize =>
    have hn : (c.blockSize.toNat : Int) = c'.blockSize.toNat := Value.int.inj (h.symm.trans h')
    exact UInt64.toNat_inj.mp (Int.ofNat_inj.mp hn)
  | writeMode =>
    have hkey := Value.Names.unique h h'
    rw [← WriteMode.ofKey?_eq_some, WriteMode.ofKey?_key] at hkey
    exact Option.some.inj hkey
  | prefill =>
    have hlist := Value.list.inj (h.symm.trans h')
    exact List.map_injective_iff.mpr (fun _ _ => Value.text.inj) hlist

/-- Values that can each be read can be read together. -/
theorem exists_reads {v : Key → Value} (h : ∀ k, ∃ c, Reads k (v k) c) :
    ∃ c, ∀ k, Reads k (v k) c := by
  choose at' hreads using h
  refine ⟨{ archiveDir := (at' .archiveDir).archiveDir
            compression := (at' .compression).compression
            blockSize := (at' .blockSize).blockSize
            writeMode := (at' .writeMode).writeMode
            prefill := (at' .prefill).prefill }, fun k => ?_⟩
  cases k with
  | archiveDir => exact hreads .archiveDir
  | compression => exact hreads .compression
  | blockSize => exact hreads .blockSize
  | writeMode => exact hreads .writeMode
  | prefill => exact hreads .prefill

/-- Settings can be read just where each can, and are then what their values say. -/
theorem ofValues?_eq_some :
    ofValues? value? = some c ↔ ∀ k : Key, ∃ v, value? k.name = some v ∧ Reads k v c := by
  simp only [ofValues?, Option.bind_eq_bind, Option.bind_eq_some_iff, Value.text?_eq_some,
    Value.choice?_eq_some, Value.word?_eq_some, Value.texts?_eq_some,
    Archive.Compression.ofKey?_eq_some, WriteMode.ofKey?_eq_some, Option.pure_def,
    Option.some.injEq]
  constructor
  · rintro ⟨_, hdir, dir, rfl, v, hv, _, hcompression, compression, rfl, _, hsize, size, rfl,
      w, hw, _, hmode, mode, rfl, _, hnames, names, rfl, rfl⟩ k
    cases k with
    | archiveDir => exact ⟨_, hdir, rfl⟩
    | compression => exact ⟨v, hv, hcompression⟩
    | blockSize => exact ⟨_, hsize, rfl⟩
    | writeMode => exact ⟨w, hw, hmode⟩
    | prefill => exact ⟨_, hnames, rfl⟩
  · intro h
    obtain ⟨_, hdir, rfl⟩ := h .archiveDir
    obtain ⟨v, hv, hcompression⟩ := h .compression
    obtain ⟨_, hsize, rfl⟩ := h .blockSize
    obtain ⟨w, hw, hmode⟩ := h .writeMode
    obtain ⟨_, hnames, rfl⟩ := h .prefill
    exact ⟨_, hdir, _, rfl, v, hv, _, hcompression, _, rfl, _, hsize, _, rfl, w, hw, _, hmode,
      _, rfl, _, hnames, _, rfl, rfl⟩

/-! ## What is in range -/

/-- Settings whose values are all in range. -/
structure Valid (c : Settings) : Prop where
  blockSize : 0 < c.blockSize.toNat
  archiveDir : c.archiveDir.text ≠ ""
  prefill : ∀ name ∈ c.prefill, Text.isBlank name = false

theorem validate_eq_ok : c.validate = .ok () ↔ c.Valid := by
  unfold validate
  constructor
  · intro h
    split at h
    · cases h
    · next hsize =>
      split at h
      · cases h
      · next hdir =>
        split at h
        · cases h
        · next hfind =>
          refine ⟨?_, by simpa using hdir, fun name hname => ?_⟩
          · rw [Nat.pos_iff_ne_zero]
            exact fun hzero => hsize (UInt64.toNat_inj.mp hzero)
          · simpa using List.find?_eq_none.mp hfind name hname
  · rintro ⟨hsize, hdir, hprefill⟩
    have hzero : c.blockSize ≠ 0 := by
      rintro heq
      rw [heq] at hsize
      exact Nat.lt_irrefl 0 hsize
    have hfind : c.prefill.find? Text.isBlank = none := by
      rw [List.find?_eq_none]
      intro name hname
      simp [hprefill name hname]
    simp [hzero, hdir, hfind]

/-- The reasons settings are refused for, each with the value that is out of range. -/
inductive Refused (c : Settings) : String → Prop
  | blockSize (zero : c.blockSize.toNat = 0) :
      Refused c "block_size must be greater than zero"
  | archiveDir (empty : c.archiveDir.text = "") : Refused c "archive_dir must not be empty"
  | prefill (name : String) (mem : name ∈ c.prefill) (blank : Text.isBlank name = true) :
      Refused c s!"prefill contains a blank database name: {Text.quoted name}"

/-- Settings are refused for a value out of range only. -/
theorem refused_of_validate {e : Error} (h : c.validate = .error e) :
    ∃ reason, e = .invalid reason ∧ Refused c reason := by
  unfold validate at h
  split at h
  · next hsize =>
    cases h
    exact ⟨_, rfl, .blockSize (by rw [hsize]; rfl)⟩
  · split at h
    · next hdir =>
      cases h
      exact ⟨_, rfl, .archiveDir (by simpa using hdir)⟩
    · split at h
      · next name hfind =>
        cases h
        exact ⟨_, rfl, .prefill name (List.mem_of_find?_eq_some hfind) (List.find?_some hfind)⟩
      · cases h

theorem Refused.not_valid {reason : String} (h : c.Refused reason) : ¬ c.Valid := by
  intro hvalid
  cases h with
  | blockSize zero => exact absurd hvalid.blockSize (by omega)
  | archiveDir empty => exact hvalid.archiveDir empty
  | prefill name mem blank => simp [hvalid.prefill name mem] at blank

/-! ## Layers at one key -/

namespace Layers

variable {l l' : Layers} {k : Key}

/-- At no setting does the environment lay a table over a table of the file. -/
def Flat (l : Layers) : Prop :=
  ∀ k : Key, ∀ lower ∈ l.file.get? k.name, ∀ upper ∈ l.environment.get? k.name,
    ¬ (lower.isTable ∧ upper.isTable)

/-- Settings have at a key what the uppermost layer says of it. -/
def Says (l : Layers) (k : Key) (c : Settings) : Prop :=
  ∃ v, l.effective? k.name = some v ∧ Reads k v c

/-- The uppermost value determines a setting. -/
theorem Says.agree (h : l.Says k c) (h' : l'.Says k c')
    (heq : l'.effective? k.name = l.effective? k.name) : Agree c c' k := by
  obtain ⟨v, hv, hreads⟩ := h
  obtain ⟨v', hv', hreads'⟩ := h'
  obtain rfl : v = v' := Option.some.inj (hv.symm.trans (heq.symm.trans hv'))
  exact hreads.agree hreads'

/-- Layers as they come about, none with a table over another. -/
structure Plain (l : Layers) : Prop where
  defaults : ∃ c : Settings, l.defaults = c.toFields
  file : l.file.Sorted
  environment : l.environment.Sorted
  flat : l.Flat

/-- At the key of a setting the merge has what the uppermost layer says. -/
theorem get?_merged (h : l.Plain) (k : Key) : l.merged.get? k.name = l.effective? k.name := by
  obtain ⟨c, hc⟩ := h.defaults
  have hwritten : l.defaults.get? k.name = some (c.written k) := hc ▸ get?_toFields c k
  have hfile : Value.overlay? (l.defaults.get? k.name) (l.file.get? k.name) =
      (l.file.get? k.name).orElse fun _ => l.defaults.get? k.name := by
    apply Value.overlay?_of_not_tables
    intro lower hlower upper _
    obtain rfl : c.written k = lower := by simpa [hwritten] using hlower
    simp [isTable_written]
  rw [merged, Value.get?_overlayFields h.environment.nodup,
    Value.get?_overlayFields h.file.nodup, hfile, Value.overlay?_of_not_tables]
  · rfl
  · intro lower hlower upper hupper
    cases hf : l.file.get? k.name with
    | some under =>
      obtain rfl : under = lower := by simpa [hf] using hlower
      exact h.flat k under hf upper hupper
    | none =>
      obtain rfl : c.written k = lower := by simpa [hf, hwritten] using hlower
      simp [isTable_written]

/-- Every setting has a value in some layer. -/
theorem exists_effective (h : l.Plain) (k : Key) : ∃ v, l.effective? k.name = some v := by
  obtain ⟨c, hc⟩ := h.defaults
  rw [effective?, hc, get?_toFields]
  cases l.environment.get? k.name with
  | some v => exact ⟨v, rfl⟩
  | none =>
    cases l.file.get? k.name with
    | some v => exact ⟨v, rfl⟩
    | none => exact ⟨c.written k, rfl⟩

/-- All that settings depend on. -/
theorem ofValues?_merged (h : l.Plain) :
    ofValues? l.merged.get? = some c ↔ ∀ k, l.Says k c := by
  simp only [ofValues?_eq_some, get?_merged h, Says]

theorem ofValues?_merged_eq_none (h : l.Plain) :
    ofValues? l.merged.get? = none ↔ ∃ k, ∀ c, ¬ l.Says k c := by
  choose v hv using exists_effective h
  have hreads (k : Key) (c : Settings) : l.Says k c ↔ Reads k (v k) c := by
    simp [Says, hv]
  constructor
  · intro hnone
    by_contra hall
    push Not at hall
    obtain ⟨c, hc⟩ := exists_reads (v := v) fun k => by
      obtain ⟨c, hc⟩ := hall k
      exact ⟨c, (hreads k c).mp hc⟩
    have hsome := (ofValues?_merged h).mpr fun k => (hreads k c).mpr (hc k)
    rw [hnone] at hsome
    cases hsome
  · rintro ⟨k, hk⟩
    rw [Option.eq_none_iff_forall_ne_some]
    intro c hc
    exact hk c ((ofValues?_merged h).mp hc k)

theorem settings_eq_ok (h : l.Plain) : l.settings = .ok c ↔ (∀ k, l.Says k c) ∧ c.Valid := by
  rw [← ofValues?_merged h, ← validate_eq_ok, settings]
  cases hread : ofValues? l.merged.get? with
  | none => simp
  | some d =>
    cases hvalid : d.validate with
    | ok u =>
      simp only [hvalid, Except.map, Except.ok.injEq, Option.some.injEq]
      constructor
      · rintro rfl
        exact ⟨rfl, hvalid⟩
      · exact And.left
    | error e =>
      simp only [hvalid, Except.map, Option.some.injEq, reduceCtorEq, false_iff, not_and]
      rintro rfl hok
      rw [hvalid] at hok
      cases hok

theorem settings_eq_load (h : l.Plain) :
    l.settings = .error .load ↔ ∃ k, ∀ c, ¬ l.Says k c := by
  rw [← ofValues?_merged_eq_none h, settings]
  cases hread : ofValues? l.merged.get? with
  | none => simp
  | some d =>
    cases hvalid : d.validate with
    | ok u => simp [hvalid, Except.map]
    | error e =>
      obtain ⟨reason, rfl, -⟩ := refused_of_validate hvalid
      simp [hvalid, Except.map]

/-- Settings that could be read are refused for a value out of range. -/
theorem refused_of_settings {e : Error} (h : l.Plain) (herror : l.settings = .error e)
    (hload : e ≠ .load) :
    ∃ reason c, e = .invalid reason ∧ (∀ k, l.Says k c) ∧ c.Refused reason := by
  rw [settings] at herror
  split at herror
  · cases herror
    exact absurd rfl hload
  · next c hread =>
    cases hvalid : c.validate with
    | ok u =>
      rw [hvalid] at herror
      cases herror
    | error e' =>
      rw [hvalid] at herror
      cases herror
      obtain ⟨reason, rfl, hrefused⟩ := refused_of_validate hvalid
      exact ⟨reason, c, rfl, (ofValues?_merged h).mp hread, hrefused⟩

theorem settings_eq_invalid (h : l.Plain) :
    (∃ reason, l.settings = .error (.invalid reason)) ↔
      ∃ c, (∀ k, l.Says k c) ∧ ¬ c.Valid := by
  constructor
  · rintro ⟨reason, herror⟩
    obtain ⟨_, c, -, hsaid, hrefused⟩ := refused_of_settings h herror (by simp)
    exact ⟨c, hsaid, hrefused.not_valid⟩
  · rintro ⟨c, hsaid, hinvalid⟩
    cases houtcome : l.settings with
    | ok c' =>
      obtain ⟨hsaid', hvalid⟩ := (settings_eq_ok h).mp houtcome
      obtain rfl : c = c' := eq_of_agree fun k => (hsaid k).agree (hsaid' k) rfl
      exact absurd hvalid hinvalid
    | error e =>
      have hne : e ≠ .load := by
        rintro rfl
        obtain ⟨k, hk⟩ := (settings_eq_load h).mp houtcome
        exact hk c (hsaid k)
      obtain ⟨reason, -, rfl, -⟩ := refused_of_settings h houtcome hne
      exact ⟨reason, rfl⟩

/-- Nothing else of the layers counts. -/
theorem settings_congr (h : l.Plain) (h' : l'.Plain)
    (heq : ∀ k : Key, l'.effective? k.name = l.effective? k.name) : l'.settings = l.settings := by
  have hread : ofValues? l'.merged.get? = ofValues? l.merged.get? := by
    apply Option.ext
    intro c
    rw [ofValues?_merged h, ofValues?_merged h']
    simp only [Says, heq]
  rw [settings, settings, hread]

end Layers

/-! ## Loading -/

namespace Surroundings

/-- The layers around a file with these fields. -/
def layers (s : Surroundings) (file : Fields) : Layers :=
  ⟨s.defaults.toFields, file, s.environment.fields⟩

variable {s : Surroundings} {path? : Option Path} {file : Fields}

theorem plain_layers (hfile : s.fileFields path? = .ok file) (hflat : (s.layers file).Flat) :
    (s.layers file).Plain where
  defaults := ⟨s.defaults, rfl⟩
  file := sorted_fileFields hfile
  environment := Variables.sorted_fields s.environment
  flat := hflat

theorem load_eq (hfile : s.fileFields path? = .ok file) :
    load s path? = (s.layers file).settings := by
  rw [load, hfile]
  rfl

end Surroundings

/-- What loading from these surroundings comes to, where the file has these fields. -/
structure Layered (s : Surroundings) (path? : Option Path) (file : Fields) : Prop where
  /-- Every setting has a value in the environment, the file or what is compiled in. -/
  effective : ∀ k : Key, ∃ v, (s.layers file).effective? k.name = some v
  /-- Of variables for one key, none a table over another, the last is that of the environment. -/
  lastVariable : ∀ k : Key, s.environment.Separate k.name →
    (s.layers file).environment.get? k.name = s.environment.last? k.name
  /-- Settings are had just where every value is well-typed and none is out of range, and are then
  what the values say; -/
  ok : ∀ c, load s path? = .ok c ↔ (∀ k, (s.layers file).Says k c) ∧ c.Valid
  /-- if one is ill-typed, loading fails; -/
  illTyped : load s path? = .error .load ↔ ∃ k, ∀ c, ¬ (s.layers file).Says k c
  /-- if all are well-typed and one is out of range, the settings are refused, -/
  invalid : (∃ reason, load s path? = .error (.invalid reason)) ↔
    ∃ c, (∀ k, (s.layers file).Says k c) ∧ ¬ c.Valid
  /-- for a value they say; -/
  refused : ∀ reason, load s path? = .error (.invalid reason) →
    ∃ c, (∀ k, (s.layers file).Says k c) ∧ c.Refused reason
  /-- and nothing else can go wrong. -/
  other : ∀ path, load s path? ≠ .error (.unsupportedFormat path)
  /-- A setting is the same in other surroundings where its value is, -/
  independent : ∀ s' path?' file', s'.fileFields path?' = .ok file' → (s'.layers file').Flat →
    ∀ c c', load s path? = .ok c → load s' path?' = .ok c' →
    ∀ k, (s'.layers file').effective? k.name = (s.layers file).effective? k.name → Agree c c' k
  /-- and all comes to the same where all values are, whatever other keys there are. -/
  same : ∀ s' path?' file', s'.fileFields path?' = .ok file' → (s'.layers file').Flat →
    (∀ k : Key, (s'.layers file').effective? k.name = (s.layers file).effective? k.name) →
    load s' path?' = load s path?
  /-- What a file says makes no difference where the environment says something. -/
  overridden : ∀ s' path?' file', s'.fileFields path?' = .ok file' → (s'.layers file').Flat →
    s'.environment = s.environment → s'.defaults = s.defaults →
    (∀ k : Key, s.environment.fields.get? k.name = none →
      file'.get? k.name = file.get? k.name) →
    load s' path?' = load s path?

/-- **The uppermost layer counts.**  Whatever a file holds and whichever variables are set, as long
as the environment lays no table over a table of the file: settings are loaded just where what the
uppermost layers say is well-typed and in range, and that is what they are. -/
theorem layered (s : Surroundings) (path? : Option Path) (file : Fields)
    (hfile : s.fileFields path? = .ok file) (hflat : (s.layers file).Flat) :
    Layered s path? file := by
  have hplain := Surroundings.plain_layers hfile hflat
  have hload := Surroundings.load_eq hfile
  have same {s' path?' file'} (hfile' : s'.fileFields path?' = .ok file')
      (hflat' : (s'.layers file').Flat)
      (heq : ∀ k : Key, (s'.layers file').effective? k.name = (s.layers file).effective? k.name) :
      load s' path?' = load s path? := by
    rw [hload, Surroundings.load_eq hfile']
    exact Layers.settings_congr hplain (Surroundings.plain_layers hfile' hflat') heq
  constructor
  case effective => exact Layers.exists_effective hplain
  case lastVariable => exact fun k hk => Variables.get?_fields hk
  case ok => exact fun c => hload ▸ Layers.settings_eq_ok hplain
  case illTyped => exact hload ▸ Layers.settings_eq_load hplain
  case invalid => exact hload ▸ Layers.settings_eq_invalid hplain
  case refused =>
    intro reason herror
    rw [hload] at herror
    obtain ⟨_, c, heq, hsaid, hrefused⟩ := Layers.refused_of_settings hplain herror (by simp)
    cases heq
    exact ⟨c, hsaid, hrefused⟩
  case other =>
    intro path herror
    rw [hload] at herror
    obtain ⟨_, c, heq, -, -⟩ := Layers.refused_of_settings hplain herror (by simp)
    cases heq
  case independent =>
    intro s' path?' file' hfile' hflat' c c' hc hc' k heq
    have hplain' := Surroundings.plain_layers hfile' hflat'
    rw [hload, Layers.settings_eq_ok hplain] at hc
    rw [Surroundings.load_eq hfile', Layers.settings_eq_ok hplain'] at hc'
    exact (hc.1 k).agree (hc'.1 k) heq
  case same => exact fun _ _ _ hfile' hflat' heq => same hfile' hflat' heq
  case overridden =>
    intro s' path?' file' hfile' hflat' henvironment hdefaults hagree
    refine same hfile' hflat' fun k => ?_
    simp only [Layers.effective?, Surroundings.layers, henvironment, hdefaults]
    cases hk : s.environment.fields.get? k.name with
    | some v => rfl
    | none => rw [hagree k hk]

/-- A file has the wrong type of one value and the right one of another; the first is set in the
environment as well. -/
theorem layered_overridden :
    let text := "\x7b\x22block_size\x22: true, \x22prefill\x22: [\x22Memos\x22]\x7d"
    let s : Surroundings :=
      { files := ⟨[(["handheld.json"], .file text.toUTF8)]⟩
        environment := [("HANDHELD_BLOCK_SIZE", "40"), ("HOME", "/home")]
        recordedHome := ⟨"/"⟩ }
    ∃ file, s.fileFields (some ⟨"handheld.json"⟩) = .ok file ∧ (s.layers file).Flat ∧
      load s (some ⟨"handheld.json"⟩) =
        .ok { archiveDir := ⟨"/home/.local/share/handheld/archives"⟩, blockSize := 40,
              prefill := ["Memos"] } ∧
      Layered s (some ⟨"handheld.json"⟩) file := by
  intro text s
  have hread : (s.fileFields (some ⟨"handheld.json"⟩)).toBool = true := by decide +kernel
  have hscalar : ∀ k : Key, (s.environment.fields.get? k.name).all (!·.isTable) = true := by
    intro k
    cases k <;> decide +kernel
  cases hfile : s.fileFields (some ⟨"handheld.json"⟩) with
  | error e =>
    rw [hfile] at hread
    cases hread
  | ok file =>
    have hflat : (s.layers file).Flat := by
      rintro k lower - upper hupper ⟨-, htable⟩
      have hk := hscalar k
      rw [show s.environment.fields.get? k.name = some upper from hupper] at hk
      simp [htable] at hk
    exact ⟨file, rfl, hflat, by decide +kernel, layered s _ file hfile hflat⟩

end Settings

end Palmtop
