import HalEnforcement.Analyzer
import HalEnforcement.Spelling
import HalEnforcement.Library.SeparatedText

/-!
# What the analyser's text says about a workload

`OpenAiAnalyzer` shows the model one line `module::name` for each import, without marking where the
module ends; a name may hold `::` and line breaks itself. `user_content_eq_iff` recovers from the
message what it does determine: the number of imports and the text of their lines.

A line can be read as an import in several ways, one for each place where `::` stands in it. Their
buckets are ordered (`bucket_of_earlier_cut`): no module of the table goes on after a `::`, so a
reading that ends the module earlier requires at least what a later one does. Hence two readings of
each line, at its first and at its last `::`, bound what all the others require, and
`prompt_determines_iff` says when the message determines the required buckets.
-/

namespace HalEnforcement

open SeparatedText

/-- The bucket of an import. -/
def Import.bucket (imp : Import) : Option String := importToCapability imp.module imp.name

/-- Some import of the list maps to the bucket. -/
def Requires (imports : List Import) (bucket : String) : Prop :=
  ∃ imp ∈ imports, imp.bucket = some bucket

theorem mem_required_buckets_iff [Wasmparser] {wasm : Bytes} {bucket : String} :
    bucket ∈ requiredBuckets wasm ↔ Requires (declaredImports wasm) bucket :=
  List.mem_filterMap

/-! ## The two extraction loops -/

/-- The line of a pair kept by the enforcer's loop. -/
def renderPair (pair : String × String) : String := OpenAiAnalyzer.renderImport ⟨pair.1, pair.2⟩

theorem extract_section_rendered (imports : List (String × String))
    (entries : List (Except String Import)) :
    OpenAiAnalyzer.extractSection (imports.map renderPair) entries =
      (extractSection imports entries).map (List.map renderPair) := by
  induction entries generalizing imports with
  | nil => rfl
  | cons entry rest ih =>
      cases entry with
      | error message => rfl
      | ok imp =>
          show OpenAiAnalyzer.extractSection (imports.map renderPair ++ [renderPair imp.pair]) rest =
            (extractSection (imports ++ [imp.pair]) rest).map (List.map renderPair)
          rw [← ih, List.map_append, List.map_singleton]

theorem extract_payloads_rendered (imports : List (String × String))
    (payloads : List (Except String Payload)) :
    OpenAiAnalyzer.extractPayloads (imports.map renderPair) payloads =
      (extractPayloads imports payloads).map (List.map renderPair) := by
  induction payloads generalizing imports with
  | nil => rfl
  | cons entry rest ih =>
      cases entry with
      | error message => rfl
      | ok payload =>
          cases payload with
          | importSection entries =>
              show (OpenAiAnalyzer.extractSection (imports.map renderPair) entries >>= fun imports =>
                  OpenAiAnalyzer.extractPayloads imports rest) =
                (extractSection imports entries >>= fun imports =>
                  extractPayloads imports rest).map (List.map renderPair)
              rw [extract_section_rendered]
              cases extractSection imports entries with
              | error error => rfl
              | ok extracted => exact ih extracted
          | componentImportSection entries => exact ih imports
          | other kind => exact ih imports

/-- The analyser extracts the lines of the imports the enforcer extracts, and fails where it does. -/
theorem analyzer_extract_imports [Wasmparser] (wasm : Bytes) :
    OpenAiAnalyzer.extractImports wasm = (extractImports wasm).map (List.map renderPair) :=
  extract_payloads_rendered [] _

/-- The content of the user message `analyze` sends for the binary. -/
def userMessage [Wasmparser] (wasm : Bytes) : Result String :=
  (OpenAiAnalyzer.extractImports wasm).map OpenAiAnalyzer.userContent

/-- The lines of the imports. -/
def lines (imports : List Import) : List String := imports.map OpenAiAnalyzer.renderImport

theorem user_message_of_parses [Wasmparser] {wasm : Bytes} (hparses : Parses wasm) :
    userMessage wasm = .ok (OpenAiAnalyzer.userContent (lines (declaredImports wasm))) := by
  rw [userMessage, analyzer_extract_imports, extract_imports_ok_iff.mpr ⟨hparses, rfl⟩]
  show Except.ok (OpenAiAnalyzer.userContent
    (((declaredImports wasm).map Import.pair).map renderPair)) = _
  rw [List.map_map]
  rfl

/-- The analyser answers the same for two binaries with the same message. -/
theorem analyze_eq_of_user_message [Wasmparser] (client : OpenAiAnalyzer.OpenAiClient)
    (model : String) {wasm wasm' : Bytes} (h : userMessage wasm = userMessage wasm') :
    openAiAnalyzer client model wasm = openAiAnalyzer client model wasm' := by
  rw [userMessage, userMessage] at h
  rw [openAiAnalyzer, openAiAnalyzer]
  cases hleft : OpenAiAnalyzer.extractImports wasm with
  | error error =>
      cases hright : OpenAiAnalyzer.extractImports wasm' with
      | error other =>
          rw [hleft, hright] at h
          rw [Except.error.inj h]
      | ok imports =>
          rw [hleft, hright] at h
          cases h
  | ok imports =>
      cases hright : OpenAiAnalyzer.extractImports wasm' with
      | error error =>
          rw [hleft, hright] at h
          cases h
      | ok imports' =>
          rw [hleft, hright] at h
          have hrequest : OpenAiAnalyzer.chatRequest model imports =
              OpenAiAnalyzer.chatRequest model imports' := by
            rw [OpenAiAnalyzer.chatRequest, OpenAiAnalyzer.chatRequest, Except.ok.inj h]
          show (mapErr (client.send (OpenAiAnalyzer.chatRequest model imports)) _ >>= _) = _
          rw [hrequest]
          rfl

/-! ## The message determines the lines' text and their number -/

/-- The digits of a number do not hold the letter that ends the count. -/
theorem count_free (count : Nat) : ')' ∉ (toString count).toList := by
  intro h
  rw [Nat.toString_eq_ofList_toDigits, String.toList_ofList] at h
  exact absurd (Nat.isDigit_of_mem_toDigits (by decide) (by decide) h) (by decide)

theorem count_injective {count other : Nat} (h : toString count = toString other) :
    count = other := by
  rw [Nat.toString_eq_ofList_toDigits, Nat.toString_eq_ofList_toDigits, String.ofList_inj] at h
  rw [← Nat.ofDigitChars_ten_toDigits (n := count), h, Nat.ofDigitChars_ten_toDigits]

theorem user_content_nonempty {entries : List String} (h : entries ≠ []) :
    (OpenAiAnalyzer.userContent entries).toList =
      "WASM imports (".toList ++ ((toString entries.length).toList ++
        ')' :: (":\n".toList ++ ("\n".intercalate entries).toList)) := by
  rw [OpenAiAnalyzer.userContent, if_neg (by simpa using h)]
  show ("WASM imports (" ++ toString entries.length ++ "):\n" ++
    "\n".intercalate entries).toList = _
  simp only [String.toList_append, List.append_assoc]
  rfl

/-- The text without imports is none of the others. -/
theorem user_content_nil_ne {entries : List String} (h : entries ≠ []) :
    OpenAiAnalyzer.userContent [] ≠ OpenAiAnalyzer.userContent entries := by
  intro heq
  have htext := congrArg String.toList heq
  rw [user_content_nonempty h] at htext
  simp [OpenAiAnalyzer.userContent] at htext

/-- The message determines the number of lines and their text, and nothing else. -/
theorem user_content_eq_iff {entries other : List String} :
    OpenAiAnalyzer.userContent entries = OpenAiAnalyzer.userContent other ↔
      entries.length = other.length ∧
        "\n".intercalate entries = "\n".intercalate other := by
  constructor
  · intro h
    by_cases hentries : entries = []
    · by_cases hother : other = []
      · rw [hentries, hother]
        exact ⟨rfl, rfl⟩
      · rw [hentries] at h
        exact absurd h (user_content_nil_ne hother)
    · by_cases hother : other = []
      · rw [hother] at h
        exact absurd h.symm (user_content_nil_ne hentries)
      · have htext := congrArg String.toList h
        rw [user_content_nonempty hentries, user_content_nonempty hother] at htext
        obtain ⟨hcount, hbody⟩ := field_eq_of_append_eq (count_free _) (count_free _)
          (List.append_cancel_left htext)
        exact ⟨count_injective (String.toList_inj.mp hcount),
          String.toList_inj.mp (List.append_cancel_left hbody)⟩
  · intro h
    obtain ⟨hlength, hjoin⟩ := h
    have hempty : entries.isEmpty = other.isEmpty := by
      rw [Bool.eq_iff_iff, List.isEmpty_iff_length_eq_zero, List.isEmpty_iff_length_eq_zero, hlength]
    simp only [OpenAiAnalyzer.userContent, hempty, hlength, hjoin]

/-! ## The readings of one line -/

/-- What stands between the module and the name. -/
def separator : List Char := [':', ':']

theorem render_import_toList (imp : Import) :
    (OpenAiAnalyzer.renderImport imp).toList =
      imp.module.toList ++ separator ++ imp.name.toList := by
  show (imp.module ++ "::" ++ imp.name).toList = _
  simp only [String.toList_append]
  rfl

/-- The text ends here or goes on with a colon. -/
def opensColon (text : List Char) : Bool := text.head?.all fun letter => letter == ':'

/-- Every colon of the text is followed by another letter. -/
def singleColons : List Char → Bool
  | [] => true
  | letter :: rest => !(letter == ':' && opensColon rest) && singleColons rest

theorem opens_colon_after {before after : List Char}
    (h : singleColons (before ++ ':' :: after) = true) : opensColon after = false := by
  induction before with
  | nil =>
      simp only [List.nil_append, singleColons, Bool.and_eq_true] at h
      simpa using h.1
  | cons letter rest ih =>
      simp only [List.cons_append, singleColons, Bool.and_eq_true] at h
      exact ih h.2

/-- A pattern with single colons that a text starts with ends before the first `::` of the text. -/
theorem prefix_of_prefix_colon {pattern before after : List Char}
    (hpattern : singleColons pattern = true) (hafter : opensColon after = true)
    (h : pattern <+: before ++ ':' :: after) : pattern <+: before := by
  have hcolon : before ++ [':'] <+: before ++ ':' :: after := by simp
  rcases List.prefix_or_prefix_of_prefix h hcolon with hshort | ⟨inside, rfl⟩
  · rcases List.prefix_concat_iff.mp hshort with rfl | hbefore
    · cases opens_colon_after hpattern
    · exact hbefore
  · rw [List.append_assoc, List.singleton_append] at hpattern
    have hinside := opens_colon_after hpattern
    -- the letter after the colon of the pattern is that of the text
    obtain ⟨rest, hrest⟩ := h
    cases inside with
    | nil => cases hinside
    | cons letter tail =>
        have htext : letter :: (tail ++ rest) = after := by simpa using hrest
        rw [← htext] at hafter
        exact absurd hafter (by simpa [opensColon] using hinside)

/-- No module the table matches exactly has two colons in a row. -/
theorem hal_capability_colons {module bucket : String} (h : halCapability module = some bucket) :
    singleColons module.toList = true := by
  unfold halCapability at h
  split at h <;> first | decide | cases h

/-- A module of the table that goes on after a colon, with nothing or with another colon, is matched
by a prefix which it has before that colon already. -/
theorem bucket_before_colon {earlier later : Import} {after : List Char}
    (hafter : opensColon after = true)
    (hmodule : later.module.toList = earlier.module.toList ++ ':' :: after) {bucket : String}
    (h : later.bucket = some bucket) : earlier.bucket = some bucket := by
  have hexact : ∀ module : String, singleColons module.toList = true → later.module ≠ module := by
    intro module hsingle heq
    rw [← heq, hmodule] at hsingle
    rw [opens_colon_after hsingle] at hafter
    cases hafter
  have hstarts : ∀ pattern : String, singleColons pattern.toList = true →
      startsWith later.module pattern = true → startsWith earlier.module pattern = true := by
    intro pattern hsingle hlater
    rw [startsWith, List.isPrefixOf_iff_prefix] at hlater ⊢
    rw [hmodule] at hlater
    exact prefix_of_prefix_colon hsingle hafter hlater
  have hpreview : ¬ (later.module = "wasi_snapshot_preview1" ∨ later.module = "wasi_unstable") := by
    intro heq
    exact heq.elim (hexact _ (by decide)) (hexact _ (by decide))
  rw [Import.bucket, importToCapability, if_neg hpreview] at h
  split at h
  · next hcrypto =>
      cases h
      exact import_to_capability_crypto
        (hcrypto.imp (hstarts _ (by decide)) (hstarts _ (by decide))) _
  · split at h
    · next hsockets =>
        cases h
        rcases hsockets with hsockets | heq
        · exact import_to_capability_sockets (hstarts _ (by decide) hsockets) _
        · exact absurd heq (hexact _ (by decide))
    · exact absurd rfl (hexact _ (hal_capability_colons h))

/-- The place where the module ends tells the readings of a line apart. -/
theorem eq_of_render_eq {imp other : Import}
    (hline : OpenAiAnalyzer.renderImport imp = OpenAiAnalyzer.renderImport other)
    (hlength : imp.module.toList.length = other.module.toList.length) : imp = other := by
  have htext := congrArg String.toList hline
  rw [render_import_toList, render_import_toList, List.append_assoc, List.append_assoc] at htext
  obtain ⟨hmodule, hrest⟩ := List.append_inj htext hlength
  have hname := List.append_cancel_left hrest
  exact congrArg₂ Import.mk (String.toList_inj.mp hmodule) (String.toList_inj.mp hname)

/-- Of two readings of one line, the one with the shorter module requires what the other does. -/
theorem bucket_of_earlier_cut {earlier later : Import}
    (hline : OpenAiAnalyzer.renderImport earlier = OpenAiAnalyzer.renderImport later)
    (hle : earlier.module.toList.length ≤ later.module.toList.length) {bucket : String}
    (h : later.bucket = some bucket) : earlier.bucket = some bucket := by
  rcases Nat.eq_or_lt_of_le hle with heq | hlt
  · rw [eq_of_render_eq hline heq]
    exact h
  · have htext := congrArg String.toList hline
    rw [render_import_toList, render_import_toList, List.append_assoc, List.append_assoc] at htext
    rcases List.append_eq_append_iff.mp htext with ⟨inside, hmodule, hrest⟩ | ⟨inside, hmodule, _⟩
    · -- the longer module goes on with the colon of the earlier cut
      cases inside with
      | nil => simp [hmodule] at hlt
      | cons letter after =>
          obtain ⟨rfl, hafter⟩ := List.cons.inj hrest
          refine bucket_before_colon ?_ hmodule h
          cases after with
          | nil => rfl
          | cons next _ =>
              obtain ⟨rfl, _⟩ := List.cons.inj hafter
              rfl
    · rw [hmodule, List.length_append] at hlt
      omega

/-! ## The first and the last reading -/

/-- The import with the two parts of a line. -/
def Import.ofCut (cut : List Char × List Char) : Import :=
  ⟨String.ofList cut.1, String.ofList cut.2⟩

/-- The line read with the shortest module. -/
def firstReading (line : String) : Option Import :=
  (cutFirst separator line.toList).map Import.ofCut

/-- The line read with the longest module. -/
def lastReading (line : String) : Option Import :=
  (cutLast separator line.toList).map Import.ofCut

theorem render_of_cut {line : String} {before after : List Char}
    (h : line.toList = before ++ separator ++ after) :
    OpenAiAnalyzer.renderImport (Import.ofCut (before, after)) = line := by
  rw [← String.toList_inj, render_import_toList, h]
  simp only [Import.ofCut, String.toList_ofList]

theorem first_reading_of_render (imp : Import) :
    ∃ first, firstReading (OpenAiAnalyzer.renderImport imp) = some first ∧
      OpenAiAnalyzer.renderImport first = OpenAiAnalyzer.renderImport imp ∧
      ∀ bucket, imp.bucket = some bucket → first.bucket = some bucket := by
  obtain ⟨before, after, hcut, hle⟩ := cutFirst_le (by decide) (render_import_toList imp)
  have hrender := render_of_cut (append_of_cutFirst hcut)
  refine ⟨.ofCut (before, after), by rw [firstReading, hcut]; rfl, hrender, ?_⟩
  intro bucket h
  exact bucket_of_earlier_cut hrender (by simpa [Import.ofCut] using hle) h

theorem last_reading_of_render (imp : Import) :
    ∃ last, lastReading (OpenAiAnalyzer.renderImport imp) = some last ∧
      OpenAiAnalyzer.renderImport last = OpenAiAnalyzer.renderImport imp ∧
      ∀ bucket, last.bucket = some bucket → imp.bucket = some bucket := by
  obtain ⟨before, after, hcut, hle⟩ := le_cutLast (by decide) (render_import_toList imp)
  have hrender := render_of_cut (append_of_cutLast hcut)
  refine ⟨.ofCut (before, after), by rw [lastReading, hcut]; rfl, hrender, ?_⟩
  intro bucket h
  exact bucket_of_earlier_cut hrender.symm (by simpa [Import.ofCut] using hle) h

/-! ## Texts and what they require -/

/-- The text of the lines, cut into as many entries, each with a `::`. Without line breaks in the
names the lines are the only such entries; otherwise an entry may span several pieces of them. -/
structure Regroups (imports : List Import) (entries : List String) : Prop where
  length : entries.length = imports.length
  join : "\n".intercalate entries = "\n".intercalate (lines imports)
  separated : ∀ entry ∈ entries, separator <:+: entry.toList

/-- Reading the entries with the shortest modules requires nothing new, and reading them with the
longest modules requires all that the imports require. -/
structure ReadsAs (entries : List String) (imports : List Import) : Prop where
  gains_nothing : ∀ bucket, Requires (entries.filterMap firstReading) bucket → Requires imports bucket
  loses_nothing : ∀ bucket, Requires imports bucket → Requires (entries.filterMap lastReading) bucket

/-- Lists of imports with the message of this one require the same buckets. -/
def SameRequired (imports : List Import) : Prop :=
  ∀ other, OpenAiAnalyzer.userContent (lines other) = OpenAiAnalyzer.userContent (lines imports) →
    ∀ bucket, Requires other bucket ↔ Requires imports bucket

theorem lines_regroup {imports other : List Import}
    (h : OpenAiAnalyzer.userContent (lines other) = OpenAiAnalyzer.userContent (lines imports)) :
    Regroups imports (lines other) := by
  obtain ⟨hlength, hjoin⟩ := user_content_eq_iff.mp h
  refine ⟨by simpa [lines] using hlength, hjoin, ?_⟩
  intro entry hentry
  obtain ⟨imp, _, rfl⟩ := List.mem_map.mp hentry
  rw [render_import_toList]
  exact ⟨_, _, rfl⟩

/-- Reading each entry back gives imports with these lines. -/
theorem lines_of_readings {reading : String → Option Import} {entries : List String}
    (h : ∀ entry ∈ entries, ∃ imp, reading entry = some imp ∧
      OpenAiAnalyzer.renderImport imp = entry) :
    lines (entries.filterMap reading) = entries := by
  induction entries with
  | nil => rfl
  | cons entry rest ih =>
      obtain ⟨⟨imp, hreading, hrender⟩, hrest⟩ := List.forall_mem_cons.mp h
      rw [List.filterMap_cons_some hreading]
      show OpenAiAnalyzer.renderImport imp :: lines (rest.filterMap reading) = entry :: rest
      rw [hrender, ih hrest]

/-- The readings of a regrouping have the message of the imports. -/
theorem user_content_of_regroups {imports : List Import} {entries : List String}
    (h : Regroups imports entries) {reading : String → Option Import}
    (hreading : ∀ imp, ∃ read, reading (OpenAiAnalyzer.renderImport imp) = some read ∧
      OpenAiAnalyzer.renderImport read = OpenAiAnalyzer.renderImport imp) :
    OpenAiAnalyzer.userContent (lines (entries.filterMap reading)) =
      OpenAiAnalyzer.userContent (lines imports) := by
  have hlines : lines (entries.filterMap reading) = entries := by
    apply lines_of_readings
    intro entry hentry
    obtain ⟨before, after, hcut⟩ := h.separated entry hentry
    rw [← render_of_cut hcut.symm]
    exact hreading _
  rw [hlines, user_content_eq_iff]
  exact ⟨by simpa [lines] using h.length, h.join⟩

/-- The readings at the first `::` require all that the imports of the lines do. -/
theorem requires_first {imports : List Import} {bucket : String} (h : Requires imports bucket) :
    Requires ((lines imports).filterMap firstReading) bucket := by
  obtain ⟨imp, himp, hbucket⟩ := h
  obtain ⟨first, hfirst, _, hkeeps⟩ := first_reading_of_render imp
  exact ⟨first, List.mem_filterMap.mpr ⟨_, List.mem_map_of_mem himp, hfirst⟩, hkeeps _ hbucket⟩

/-- The readings at the last `::` require nothing that the imports of the lines do not. -/
theorem requires_of_last {imports : List Import} {bucket : String}
    (h : Requires ((lines imports).filterMap lastReading) bucket) : Requires imports bucket := by
  obtain ⟨last, hmem, hbucket⟩ := h
  obtain ⟨line, hline, hread⟩ := List.mem_filterMap.mp hmem
  obtain ⟨imp, himp, rfl⟩ := List.mem_map.mp hline
  obtain ⟨other, hother, _, hkeeps⟩ := last_reading_of_render imp
  rw [hother] at hread
  rw [← Option.some.inj hread] at hbucket
  exact ⟨imp, himp, hkeeps _ hbucket⟩

/-- The message determines the required buckets exactly when every regrouping reads as the
imports. -/
theorem same_required_iff {imports : List Import} :
    SameRequired imports ↔ ∀ entries, Regroups imports entries → ReadsAs entries imports := by
  constructor
  · intro h entries hentries
    -- both readings are import lists with this message
    have hfirst := h _ (user_content_of_regroups hentries fun imp =>
      (first_reading_of_render imp).imp fun _ hread => ⟨hread.1, hread.2.1⟩)
    have hlast := h _ (user_content_of_regroups hentries fun imp =>
      (last_reading_of_render imp).imp fun _ hread => ⟨hread.1, hread.2.1⟩)
    exact ⟨fun bucket => (hfirst bucket).mp, fun bucket => (hlast bucket).mpr⟩
  · intro h other hother bucket
    obtain ⟨hgains, hloses⟩ := h _ (lines_regroup hother)
    exact ⟨fun hrequires => hgains bucket (requires_first hrequires),
      fun hrequires => requires_of_last (hloses bucket hrequires)⟩

/-- No name of an import holds a line break. -/
def LineBreakFree (imports : List Import) : Prop :=
  ∀ imp ∈ imports, '\n' ∉ imp.module.toList ∧ '\n' ∉ imp.name.toList

theorem regroups_iff_lines {imports : List Import} (hfree : LineBreakFree imports)
    {entries : List String} : Regroups imports entries ↔ entries = lines imports := by
  constructor
  · intro h
    have hlines : ∀ line ∈ (lines imports).map String.toList, '\n' ∉ line := by
      intro line hline
      obtain ⟨_, hmem, rfl⟩ := List.mem_map.mp hline
      obtain ⟨imp, himp, rfl⟩ := List.mem_map.mp hmem
      simp [render_import_toList, separator, hfree imp himp]
    have hjoin := congrArg String.toList h.join
    rw [String.toList_intercalate, String.toList_intercalate] at hjoin
    have hentries := entries_eq_of_join_eq '\n' hlines (by simpa [lines] using h.length) hjoin
    exact List.map_injective_iff.mpr (fun _ _ => String.toList_inj.mp) hentries
  · intro h
    rw [h]
    exact lines_regroup rfl

/-- The import is the only one with its line: the first and the last `::` of the line are one. -/
def OnlyReading (imp : Import) : Prop :=
  firstReading (OpenAiAnalyzer.renderImport imp) = some imp ∧
    lastReading (OpenAiAnalyzer.renderImport imp) = some imp

instance (imp : Import) : Decidable (OnlyReading imp) :=
  inferInstanceAs (Decidable (_ ∧ _))

theorem eq_of_only_reading {imp other : Import} (h : OnlyReading imp)
    (hline : OpenAiAnalyzer.renderImport other = OpenAiAnalyzer.renderImport imp) :
    other = imp := by
  obtain ⟨hfirst, hlast⟩ := h
  rw [← hline, firstReading] at hfirst
  rw [← hline, lastReading] at hlast
  obtain ⟨first, _, hcut, hle⟩ := cutFirst_le (by decide) (render_import_toList other)
  obtain ⟨last, _, hcut', hle'⟩ := le_cutLast (by decide) (render_import_toList other)
  rw [hcut] at hfirst
  rw [hcut'] at hlast
  cases Option.some.inj hfirst
  have hmodule : last = first :=
    String.ofList_inj.mp (congrArg Import.module (Option.some.inj hlast))
  rw [hmodule] at hle'
  -- the module of the other import is neither shorter nor longer
  refine eq_of_render_eq hline ?_
  show other.module.toList.length = (String.ofList first).toList.length
  rw [String.toList_ofList]
  exact Nat.le_antisymm hle' hle

/-- Imports with one reading each and no line break in their names are all in the message. -/
theorem imports_eq_of_user_content {imports other : List Import} (hfree : LineBreakFree imports)
    (honly : ∀ imp ∈ imports, OnlyReading imp)
    (h : OpenAiAnalyzer.userContent (lines other) = OpenAiAnalyzer.userContent (lines imports)) :
    other = imports := by
  have hlines := (regroups_iff_lines hfree).mp (lines_regroup h)
  clear hfree h
  induction imports generalizing other with
  | nil => exact List.map_eq_nil_iff.mp hlines
  | cons imp rest ih =>
      obtain ⟨himp, hrest⟩ := List.forall_mem_cons.mp honly
      cases other with
      | nil => cases hlines
      | cons head tail =>
          obtain ⟨hhead, htail⟩ := List.cons.inj hlines
          rw [eq_of_only_reading himp hhead, ih hrest htail]

section Workload

variable [Wasmparser]

/-- The user message of the binary determines the buckets the check requires for it. -/
def PromptDetermines (wasm : Bytes) : Prop :=
  ∀ wasm', Parses wasm' → userMessage wasm' = userMessage wasm →
    ∀ bucket, bucket ∈ requiredBuckets wasm' ↔ bucket ∈ requiredBuckets wasm

/-- Every import list with the message of this one is that of some binary. `wasmparser` allows names
of 100000 bytes, so this fails where the names are so long that another reading of the message has
one over the limit. -/
def MessageEncodable (imports : List Import) : Prop :=
  ∀ other, OpenAiAnalyzer.userContent (lines other) = OpenAiAnalyzer.userContent (lines imports) →
    ∃ wasm, Parses wasm ∧ declaredImports wasm = other

theorem prompt_determines_of_same_required {wasm : Bytes} (hparses : Parses wasm)
    (h : SameRequired (declaredImports wasm)) : PromptDetermines wasm := by
  intro wasm' hparses' hmessage bucket
  rw [user_message_of_parses hparses, user_message_of_parses hparses'] at hmessage
  rw [mem_required_buckets_iff, mem_required_buckets_iff]
  exact h _ (Except.ok.inj hmessage) bucket

theorem same_required_of_prompt_determines {wasm : Bytes} (hparses : Parses wasm)
    (hencodable : MessageEncodable (declaredImports wasm)) (h : PromptDetermines wasm) :
    SameRequired (declaredImports wasm) := by
  intro other hother bucket
  obtain ⟨wasm', hparses', rfl⟩ := hencodable other hother
  rw [← mem_required_buckets_iff, ← mem_required_buckets_iff]
  refine h wasm' hparses' ?_ bucket
  rw [user_message_of_parses hparses, user_message_of_parses hparses', hother]

/-- The message of a binary determines its required buckets if every regrouping of its lines, read
at the first and at the last `::` of each entry, requires the same. The converse is under
`MessageEncodable`, that the import lists with this message all have binaries. Without line breaks
in the names the lines themselves are the only regrouping. -/
theorem prompt_determines_iff (wasm : Bytes) (hparses : Parses wasm) :
    ((∀ entries, Regroups (declaredImports wasm) entries → ReadsAs entries (declaredImports wasm)) →
        PromptDetermines wasm) ∧
      (MessageEncodable (declaredImports wasm) →
        (PromptDetermines wasm ↔
          ∀ entries, Regroups (declaredImports wasm) entries →
            ReadsAs entries (declaredImports wasm))) ∧
      (LineBreakFree (declaredImports wasm) →
        ((∀ entries, Regroups (declaredImports wasm) entries →
            ReadsAs entries (declaredImports wasm)) ↔
          ReadsAs (lines (declaredImports wasm)) (declaredImports wasm))) := by
  refine ⟨?_, ?_, ?_⟩
  · intro h
    exact prompt_determines_of_same_required hparses (same_required_iff.mpr h)
  · intro hencodable
    rw [← same_required_iff]
    exact ⟨same_required_of_prompt_determines hparses hencodable,
      prompt_determines_of_same_required hparses⟩
  · intro hfree
    simp only [regroups_iff_lines hfree, forall_eq]

end Workload

/-- The parser that knows the modules importing one function whose name holds `::`, or none. -/
@[reducible] def promptParser : Wasmparser :=
  importParser [⟨"elastic:hal/crypto", "hash"⟩, ⟨"platform", "x::y"⟩, ⟨"platform::x", "y"⟩]

/-- The message of the module that imports one function of the crypto interface determines that it
requires crypto. -/
theorem prompt_determines_crypto :
    @PromptDetermines promptParser (importingModule ⟨"elastic:hal/crypto", "hash"⟩) := by
  let _ := promptParser
  have hdeclared : declaredImports (importingModule ⟨"elastic:hal/crypto", "hash"⟩) =
      [⟨"elastic:hal/crypto", "hash"⟩] := importing_module_declares (by decide)
  have hparses : Parses (importingModule ⟨"elastic:hal/crypto", "hash"⟩) :=
    importing_module_parses (by decide)
  have hfree : LineBreakFree (declaredImports (importingModule ⟨"elastic:hal/crypto", "hash"⟩)) := by
    rw [hdeclared, LineBreakFree]
    decide
  have hencodable :
      MessageEncodable (declaredImports (importingModule ⟨"elastic:hal/crypto", "hash"⟩)) := by
    intro other hother
    refine ⟨_, hparses, (imports_eq_of_user_content hfree ?_ hother).symm⟩
    rw [hdeclared]
    decide
  obtain ⟨_, hdetermines, hlines⟩ := prompt_determines_iff _ hparses
  refine (hdetermines hencodable).mpr ((hlines hfree).mpr ?_)
  rw [hdeclared]
  exact ⟨fun _ h => h, fun _ h => h⟩

/-- Two modules with one message, of which the first alone requires a bucket. -/
theorem one_message_two_requirements :
    @Parses promptParser (importingModule ⟨"platform", "x::y"⟩) ∧
      @Parses promptParser (importingModule ⟨"platform::x", "y"⟩) ∧
      @userMessage promptParser (importingModule ⟨"platform", "x::y"⟩) =
        .ok "WASM imports (1):\nplatform::x::y" ∧
      @userMessage promptParser (importingModule ⟨"platform::x", "y"⟩) =
        .ok "WASM imports (1):\nplatform::x::y" ∧
      @requiredBuckets promptParser (importingModule ⟨"platform", "x::y"⟩) = ["platform"] ∧
      @requiredBuckets promptParser (importingModule ⟨"platform::x", "y"⟩) = [] ∧
      ¬ @PromptDetermines promptParser (importingModule ⟨"platform", "x::y"⟩) := by
  let _ := promptParser
  have hparses : Parses (importingModule ⟨"platform", "x::y"⟩) :=
    importing_module_parses (by decide)
  have hparses' : Parses (importingModule ⟨"platform::x", "y"⟩) :=
    importing_module_parses (by decide)
  have hmessage : userMessage (importingModule ⟨"platform", "x::y"⟩) =
      .ok "WASM imports (1):\nplatform::x::y" := by
    rw [user_message_of_parses hparses, importing_module_declares (by decide)]
    decide
  have hmessage' : userMessage (importingModule ⟨"platform::x", "y"⟩) =
      .ok "WASM imports (1):\nplatform::x::y" := by
    rw [user_message_of_parses hparses', importing_module_declares (by decide)]
    decide
  have hrequired : requiredBuckets (importingModule ⟨"platform", "x::y"⟩) = ["platform"] := by
    rw [requiredBuckets, importing_module_declares (by decide)]
    rfl
  have hrequired' : requiredBuckets (importingModule ⟨"platform::x", "y"⟩) = [] := by
    rw [requiredBuckets, importing_module_declares (by decide)]
    rfl
  refine ⟨hparses, hparses', hmessage, hmessage', hrequired, hrequired', fun h => ?_⟩
  have hsame := h (importingModule ⟨"platform::x", "y"⟩) hparses'
    (hmessage'.trans hmessage.symm) "platform"
  rw [hrequired, hrequired'] at hsame
  exact absurd (hsame.mpr (List.mem_singleton_self _)) (by simp)

end HalEnforcement
