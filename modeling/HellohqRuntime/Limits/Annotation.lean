import HellohqRuntime.Foundation.Strings
import Mathlib.Data.List.Infix

/-!
# Errors of a stopped run

A run that the runtime stops ends in a chain of error texts, the outermost first.
The chain is searched for the words that the texts of a resource limit use, and the
message for the app gets the prefix of the limit that is found.  The texts hold
names of the guest's choice, and one driver passes on a message of the guest as it
is.  The main result is when the prefix says what stopped the run.
-/

namespace HellohqRuntime.Limits.Annotation

open HellohqRuntime.Foundation.Strings

def ERR_CPU_LIMIT : Text := "hellohq-plugin-cpu-limit".toList

def ERR_MEMORY_LIMIT : Text := "hellohq-plugin-memory-limit".toList

/-- What made the runtime give an error.  A `memory.grow` over the cap only gives -1,
so `memoryCap` is an instantiation that is refused; a trap of the guest after a
refused `memory.grow` counts as `other`. -/
inductive Cause where
  | fuel | interrupt | memoryCap | other
  deriving DecidableEq, Repr

/-- An error of the runtime: its text, those of its sources in order, and what it
comes from, which the host does not see. -/
structure WasmtimeError where
  cause : Cause
  text : Text
  sources : List Text
  deriving DecidableEq, Repr

def WasmtimeError.links (err : WasmtimeError) : List Text := err.text :: err.sources

/-! ## Classification -/

def contains (text pattern : Text) : Bool := text.tails.any pattern.isPrefixOf

def classify (err : Text) : Option Text :=
  let e := toAsciiLowercase err
  if contains e "fuel".toList || contains e "epoch".toList || contains e "interrupt".toList then
    some ERR_CPU_LIMIT
  else if contains e "exceeds memory limits".toList || contains e "memory limits".toList ||
      contains e "memory".toList && (contains e "limit".toList || contains e "exceed".toList) then
    some ERR_MEMORY_LIMIT
  else none

/-- The loop over the links of a chain. -/
def classifyLinks : List Text → Option Text
  | [] => none
  | link :: rest =>
      match classify link with
      | some code => some code
      | none => classifyLinks rest

def classifyChain (err : WasmtimeError) : Option Text := classifyLinks err.links

def annotate (err : WasmtimeError) : Text :=
  match classifyChain err with
  | some code => code ++ ": ".toList ++ ": ".toList.intercalate err.links
  | none => err.text

/-! ## Drivers -/

/-- What the calls of a driver into the runtime give: the stages in front of the
guest's `run`, and the `run` itself. -/
structure GuestRun (α : Type) where
  stages : List (Except WasmtimeError Unit)
  ran : Except WasmtimeError α

variable {α : Type}

/-- Every error on the way is annotated; the first one ends the run. -/
def callGuest (guest : GuestRun α) : Except Text α := do
  guest.stages.forM fun stage => stage.mapError annotate
  guest.ran.mapError annotate

/-- The drivers whose guest returns bytes. -/
def drive (guest : GuestRun Bytes) : Except Text Bytes := callGuest guest

/-- The driver of a plugin, whose `run` has a result of its own. -/
def drivePluginRun (guest : GuestRun (Except Text Bytes)) : Except Text Bytes := do
  let result ← callGuest guest
  result

def errorOf : Except WasmtimeError α → Option WasmtimeError
  | .ok _ => none
  | .error err => some err

/-- The error that ended the run, if the runtime ended it. -/
def stoppedBy (guest : GuestRun α) : Option WasmtimeError :=
  (guest.stages.findSome? errorOf).or (errorOf guest.ran)

theorem callGuest_cases (guest : GuestRun α) :
    (∃ err, stoppedBy guest = some err ∧ callGuest guest = .error (annotate err)) ∨
      ∃ value, stoppedBy guest = none ∧ guest.ran = .ok value ∧ callGuest guest = .ok value := by
  obtain ⟨stages, ran⟩ := guest
  simp only [stoppedBy, callGuest]
  induction stages with
  | nil =>
      cases ran with
      | error err => exact .inl ⟨err, rfl, rfl⟩
      | ok value => exact .inr ⟨value, rfl, rfl, rfl⟩
  | cons stage rest ih =>
      cases stage with
      | error err => exact .inl ⟨err, rfl, rfl⟩
      | ok done => exact ih

/-! ## What a text mentions -/

theorem contains_iff {text pattern : Text} : contains text pattern = true ↔ pattern <:+: text := by
  simp only [contains, List.any_eq_true, List.mem_tails, List.isPrefixOf_iff_prefix]
  constructor
  · rintro ⟨tail, hsuffix, hfront⟩
    exact hfront.isInfix.trans hsuffix.isInfix
  · rintro ⟨before, after, rfl⟩
    refine ⟨pattern ++ after, ⟨before, by simp⟩, List.prefix_append _ _⟩

/-- The text uses a word of the runtime for the CPU budget. -/
def MentionsCpu (text : Text) : Prop :=
  "fuel".toList <:+: toAsciiLowercase text ∨ "epoch".toList <:+: toAsciiLowercase text ∨
    "interrupt".toList <:+: toAsciiLowercase text

/-- The text speaks of memory together with a limit or an excess. -/
def MentionsMemory (text : Text) : Prop :=
  "memory".toList <:+: toAsciiLowercase text ∧
    ("limit".toList <:+: toAsciiLowercase text ∨ "exceed".toList <:+: toAsciiLowercase text)

/-- A text speaks of the CPU budget where a part of it does. -/
theorem MentionsCpu.of_isInfix {word text : Text} (hword : MentionsCpu word)
    (hwithin : word <:+: text) : MentionsCpu text := by
  have hlower : toAsciiLowercase word <:+: toAsciiLowercase text := hwithin.map Char.toLower
  rcases hword with hfuel | hepoch | hinterrupt
  · exact .inl (hfuel.trans hlower)
  · exact .inr (.inl (hepoch.trans hlower))
  · exact .inr (.inr (hinterrupt.trans hlower))

/-- A text speaks of the memory limit where a part of it does. -/
theorem MentionsMemory.of_isInfix {word text : Text} (hword : MentionsMemory word)
    (hwithin : word <:+: text) : MentionsMemory text := by
  have hlower : toAsciiLowercase word <:+: toAsciiLowercase text := hwithin.map Char.toLower
  exact ⟨hword.1.trans hlower, hword.2.imp (·.trans hlower) (·.trans hlower)⟩

theorem classify_of_mentionsCpu {text : Text} (hcpu : MentionsCpu text) :
    classify text = some ERR_CPU_LIMIT := by
  rw [classify, if_pos]
  simpa [contains_iff, MentionsCpu, or_assoc] using hcpu

theorem classify_of_mentionsMemory {text : Text} (hcpu : ¬MentionsCpu text)
    (hmemory : MentionsMemory text) : classify text = some ERR_MEMORY_LIMIT := by
  rw [classify, if_neg, if_pos]
  · simp only [Bool.or_eq_true, Bool.and_eq_true, contains_iff]
    exact .inr hmemory
  · simpa [contains_iff, MentionsCpu, or_assoc] using hcpu

theorem classify_of_mentionsNone {text : Text} (hcpu : ¬MentionsCpu text)
    (hmemory : ¬MentionsMemory text) : classify text = none := by
  rw [classify, if_neg, if_neg]
  · simp only [Bool.or_eq_true, Bool.and_eq_true, contains_iff]
    have hlimits : "memory limits".toList <:+: toAsciiLowercase text → MentionsMemory text := by
      intro hwithin
      exact ⟨List.IsInfix.trans ⟨[], " limits".toList, rfl⟩ hwithin,
        .inl (List.IsInfix.trans ⟨"memory ".toList, "s".toList, rfl⟩ hwithin)⟩
    rintro ((hexceeds | hlimit) | hboth)
    · exact hmemory (hlimits (List.IsInfix.trans ⟨"exceeds ".toList, [], rfl⟩ hexceeds))
    · exact hmemory (hlimits hlimit)
    · exact hmemory hboth
  · simpa [contains_iff, MentionsCpu, or_assoc] using hcpu

/-! ## The chain -/

/-- Every link with the second property has one with the first in front of it. -/
def Precedes (First Second : Text → Prop) (links : List Text) : Prop :=
  ∀ earlier link later, links = earlier ++ link :: later → Second link →
    ∃ other ∈ earlier, First other

variable {First Second : Text → Prop}

/-- Behind a link with the first property nothing is asked. -/
theorem precedes_of_first {link : Text} {rest : List Text} (hfirst : First link)
    (hsecond : ¬Second link) : Precedes First Second (link :: rest) := by
  intro earlier other later hlinks hother
  cases earlier with
  | nil =>
      obtain rfl := (List.cons.inj hlinks).1
      exact absurd hother hsecond
  | cons head more =>
      obtain rfl := (List.cons.inj hlinks).1
      exact ⟨_, List.mem_cons_self, hfirst⟩

theorem not_precedes_of_second {link : Text} {rest : List Text} (hsecond : Second link) :
    ¬Precedes First Second (link :: rest) := by
  intro hprecedes
  obtain ⟨other, hother, -⟩ := hprecedes [] link rest rfl hsecond
  cases hother

theorem precedes_cons_iff {link : Text} {rest : List Text} (hfirst : ¬First link)
    (hsecond : ¬Second link) :
    Precedes First Second (link :: rest) ↔ Precedes First Second rest := by
  constructor
  · intro hprecedes earlier other later hlinks hother
    obtain ⟨found, hmem, hfound⟩ :=
      hprecedes (link :: earlier) other later (congrArg (link :: ·) hlinks) hother
    rcases List.mem_cons.mp hmem with rfl | hmem
    · exact absurd hfound hfirst
    · exact ⟨found, hmem, hfound⟩
  · intro hprecedes earlier other later hlinks hother
    cases earlier with
    | nil =>
        obtain rfl := (List.cons.inj hlinks).1
        exact absurd hother hsecond
    | cons head more =>
        obtain ⟨rfl, htail⟩ := List.cons.inj hlinks
        obtain ⟨found, hmem, hfound⟩ := hprecedes more other later htail hother
        exact ⟨found, List.mem_cons_of_mem _ hmem, hfound⟩

/-- The text speaks of the memory limit and of no other. -/
def MentionsMemoryOnly (text : Text) : Prop := MentionsMemory text ∧ ¬MentionsCpu text

/-- A chain is classified by its first link that speaks of a limit. -/
theorem classifyLinks_eq_some_iff {code other : Text} (hcodes : other ≠ code)
    (hfirst : ∀ link, First link → classify link = some code)
    (hsecond : ∀ link, Second link → classify link = some other)
    (hneither : ∀ link, ¬First link → ¬Second link → classify link = none) {links : List Text}
    (hsome : ∃ link ∈ links, First link) :
    classifyLinks links = some code ↔ Precedes First Second links := by
  induction links with
  | nil =>
      obtain ⟨link, hlink, -⟩ := hsome
      cases hlink
  | cons link rest ih =>
      by_cases hlink : First link
      · have hapart : ¬Second link := by
          intro hboth
          exact hcodes (Option.some.inj ((hsecond link hboth).symm.trans (hfirst link hlink)))
        refine iff_of_true ?_ (precedes_of_first hlink hapart)
        simp only [classifyLinks, hfirst link hlink]
      · by_cases hother : Second link
        · refine iff_of_false ?_ (not_precedes_of_second hother)
          simp only [classifyLinks, hsecond link hother]
          exact fun hcode => hcodes (Option.some.inj hcode)
        · have hrest : ∃ link ∈ rest, First link := by
            obtain ⟨found, hmem, hfound⟩ := hsome
            rcases List.mem_cons.mp hmem with rfl | hmem
            · exact absurd hfound hlink
            · exact ⟨found, hmem, hfound⟩
          rw [precedes_cons_iff hlink hother, ← ih hrest]
          simp only [classifyLinks, hneither link hlink hother]

theorem classifyLinks_eq_cpu_iff {links : List Text} (hsome : ∃ link ∈ links, MentionsCpu link) :
    classifyLinks links = some ERR_CPU_LIMIT ↔
      Precedes MentionsCpu MentionsMemoryOnly links := by
  have hcodes : ERR_MEMORY_LIMIT ≠ ERR_CPU_LIMIT := by decide
  apply classifyLinks_eq_some_iff hcodes _ _ _ hsome
  · exact fun link => classify_of_mentionsCpu
  · exact fun link hmemory => classify_of_mentionsMemory hmemory.2 hmemory.1
  · exact fun link hcpu honly => classify_of_mentionsNone hcpu fun hmemory => honly ⟨hmemory, hcpu⟩

theorem classifyLinks_eq_memory_iff {links : List Text}
    (hsome : ∃ link ∈ links, MentionsMemoryOnly link) :
    classifyLinks links = some ERR_MEMORY_LIMIT ↔
      Precedes MentionsMemoryOnly MentionsCpu links := by
  have hcodes : ERR_CPU_LIMIT ≠ ERR_MEMORY_LIMIT := by decide
  apply classifyLinks_eq_some_iff hcodes _ _ _ hsome
  · exact fun link hmemory => classify_of_mentionsMemory hmemory.2 hmemory.1
  · exact fun link => classify_of_mentionsCpu
  · exact fun link honly hcpu => classify_of_mentionsNone hcpu fun hmemory => honly ⟨hmemory, hcpu⟩

theorem classifyLinks_eq_none_iff {links : List Text} :
    classifyLinks links = none ↔ ∀ link ∈ links, ¬MentionsCpu link ∧ ¬MentionsMemory link := by
  induction links with
  | nil => simp [classifyLinks]
  | cons link rest ih =>
      rw [List.forall_mem_cons, ← ih]
      by_cases hcpu : MentionsCpu link
      · simp [classifyLinks, classify_of_mentionsCpu hcpu, hcpu]
      · by_cases hmemory : MentionsMemory link
        · simp [classifyLinks, classify_of_mentionsMemory hcpu hmemory, hmemory]
        · simp [classifyLinks, classify_of_mentionsNone hcpu hmemory, hcpu, hmemory]

/-- A chain is classified as one of the two limits, or as none. -/
theorem classifyLinks_cases (links : List Text) :
    classifyLinks links = some ERR_CPU_LIMIT ∨ classifyLinks links = some ERR_MEMORY_LIMIT ∨
      classifyLinks links = none := by
  induction links with
  | nil => exact .inr (.inr rfl)
  | cons link rest ih =>
      by_cases hcpu : MentionsCpu link
      · exact .inl (by simp only [classifyLinks, classify_of_mentionsCpu hcpu])
      · by_cases hmemory : MentionsMemory link
        · exact .inr (.inl (by
            simp only [classifyLinks, classify_of_mentionsMemory hcpu hmemory]))
        · simpa only [classifyLinks, classify_of_mentionsNone hcpu hmemory] using ih

/-! ## What the prefix should say -/

/-- The message has the prefix of the limit that stopped the run, and no other. -/
structure PrefixMeans (cause : Option Cause) (message : Text) : Prop where
  cpu : ERR_CPU_LIMIT <+: message ↔ cause = some .fuel ∨ cause = some .interrupt
  memory : ERR_MEMORY_LIMIT <+: message ↔ cause = some .memoryCap

/-- The runtime says in the chain which limit was hit: a trap has the text
`wasm trap: all fuel consumed by WebAssembly` or `wasm trap: interrupt`. -/
def NamesCause (err : WasmtimeError) : Prop :=
  match err.cause with
  | .fuel => ∃ link ∈ err.links, "all fuel consumed by WebAssembly".toList <:+: link
  | .interrupt => ∃ link ∈ err.links, "interrupt".toList <:+: link
  | .memoryCap => ∃ link ∈ err.links, "exceeds memory limits".toList <:+: link ∧ ¬MentionsCpu link
  | .other => True

/-- No text in the chain, in front of the one that names the limit, speaks of the
other limit; where there was no limit, no text speaks of one. -/
def NoOtherLimit (err : WasmtimeError) : Prop :=
  match err.cause with
  | .fuel | .interrupt => Precedes MentionsCpu MentionsMemoryOnly err.links
  | .memoryCap => Precedes MentionsMemoryOnly MentionsCpu err.links
  | .other => (∀ link ∈ err.links, ¬MentionsCpu link ∧ ¬MentionsMemory link) ∧
      ¬ERR_CPU_LIMIT <+: err.text

theorem not_prefix_of_take_ne {n : Nat} {left right rest : Text} (hleft : n ≤ left.length)
    (hright : n ≤ right.length) (hne : left.take n ≠ right.take n) : ¬left <+: right ++ rest := by
  rintro ⟨tail, htail⟩
  refine hne ?_
  have htake := congrArg (List.take n) htail
  rwa [List.take_append_of_le_length hleft, List.take_append_of_le_length hright] at htake

theorem not_prefix_cpu_memory (rest : Text) : ¬ERR_CPU_LIMIT <+: ERR_MEMORY_LIMIT ++ rest :=
  @not_prefix_of_take_ne 16 _ _ rest (by decide) (by decide) (by decide)

theorem not_prefix_memory_cpu (rest : Text) : ¬ERR_MEMORY_LIMIT <+: ERR_CPU_LIMIT ++ rest :=
  @not_prefix_of_take_ne 16 _ _ rest (by decide) (by decide) (by decide)

/-- The prefix of the memory limit speaks of it. -/
theorem mentionsMemory_of_startsWith {text : Text} (hfront : ERR_MEMORY_LIMIT <+: text) :
    MentionsMemory text := by
  have hprefix : MentionsMemory ERR_MEMORY_LIMIT :=
    ⟨⟨"hellohq-plugin-".toList, "-limit".toList, by decide⟩,
      .inl ⟨"hellohq-plugin-memory-".toList, [], by decide⟩⟩
  exact hprefix.of_isInfix hfront.isInfix

/-- The message of an error: the prefix of the limit that the chain is classified as,
or the text of the error. -/
theorem annotate_cases (err : WasmtimeError) :
    (classifyLinks err.links = some ERR_CPU_LIMIT ∧ ERR_CPU_LIMIT <+: annotate err ∧
        ¬ERR_MEMORY_LIMIT <+: annotate err) ∨
      (classifyLinks err.links = some ERR_MEMORY_LIMIT ∧ ERR_MEMORY_LIMIT <+: annotate err ∧
        ¬ERR_CPU_LIMIT <+: annotate err) ∨
      (classifyLinks err.links = none ∧ annotate err = err.text) := by
  rcases classifyLinks_cases err.links with hcode | hcode | hcode
  · refine .inl ⟨hcode, ?_⟩
    simp only [annotate, classifyChain, hcode, List.append_assoc]
    exact ⟨List.prefix_append _ _, not_prefix_memory_cpu _⟩
  · refine .inr (.inl ⟨hcode, ?_⟩)
    simp only [annotate, classifyChain, hcode, List.append_assoc]
    exact ⟨List.prefix_append _ _, not_prefix_cpu_memory _⟩
  · refine .inr (.inr ⟨hcode, ?_⟩)
    simp only [annotate, classifyChain, hcode]

/-- A stop by the CPU budget is told as such exactly if the chain is classified so. -/
theorem prefixMeans_cpu_iff {err : WasmtimeError} (hcause : err.cause = .fuel ∨ err.cause = .interrupt)
    (hsome : ∃ link ∈ err.links, MentionsCpu link) :
    PrefixMeans (some err.cause) (annotate err) ↔
      Precedes MentionsCpu MentionsMemoryOnly err.links := by
  rw [← classifyLinks_eq_cpu_iff hsome]
  have hcpu : some err.cause = some .fuel ∨ some err.cause = some .interrupt := by
    simpa using hcause
  have hmemory : some err.cause ≠ some .memoryCap := by
    rcases hcause with hcause | hcause <;> simp [hcause]
  rcases annotate_cases err with ⟨hcode, hfront, hnot⟩ | ⟨hcode, hfront, hnot⟩ | ⟨hcode, -⟩
  · exact iff_of_true ⟨iff_of_true hfront hcpu, iff_of_false hnot hmemory⟩ hcode
  · refine iff_of_false ?_ ?_
    · intro hmeans
      exact hmemory (hmeans.memory.mp hfront)
    · rw [hcode]
      decide
  · obtain ⟨link, hlink, hmentions⟩ := hsome
    exact absurd hmentions (classifyLinks_eq_none_iff.mp hcode link hlink).1

/-- A stop by the memory cap is told as such exactly if the chain is classified so. -/
theorem prefixMeans_memory_iff {err : WasmtimeError} (hcause : err.cause = .memoryCap)
    (hsome : ∃ link ∈ err.links, MentionsMemoryOnly link) :
    PrefixMeans (some err.cause) (annotate err) ↔
      Precedes MentionsMemoryOnly MentionsCpu err.links := by
  rw [← classifyLinks_eq_memory_iff hsome]
  have hcpu : ¬(some err.cause = some .fuel ∨ some err.cause = some .interrupt) := by
    simp [hcause]
  have hmemory : some err.cause = some .memoryCap := by rw [hcause]
  rcases annotate_cases err with ⟨hcode, hfront, hnot⟩ | ⟨hcode, hfront, hnot⟩ | ⟨hcode, -⟩
  · refine iff_of_false ?_ ?_
    · intro hmeans
      exact hcpu (hmeans.cpu.mp hfront)
    · rw [hcode]
      decide
  · exact iff_of_true ⟨iff_of_false hnot hcpu, iff_of_true hfront hmemory⟩ hcode
  · obtain ⟨link, hlink, hmentions⟩ := hsome
    exact absurd hmentions.1 (classifyLinks_eq_none_iff.mp hcode link hlink).2

/-- Another error has no prefix exactly if none of its texts speaks of a limit. -/
theorem prefixMeans_other_iff {err : WasmtimeError} (hcause : err.cause = .other) :
    PrefixMeans (some err.cause) (annotate err) ↔
      (∀ link ∈ err.links, ¬MentionsCpu link ∧ ¬MentionsMemory link) ∧
        ¬ERR_CPU_LIMIT <+: err.text := by
  rw [← classifyLinks_eq_none_iff]
  have hcpu : ¬(some err.cause = some .fuel ∨ some err.cause = some .interrupt) := by
    simp [hcause]
  have hmemory : some err.cause ≠ some .memoryCap := by simp [hcause]
  rcases annotate_cases err with ⟨hcode, hfront, hnot⟩ | ⟨hcode, hfront, hnot⟩ | ⟨hcode, htext⟩
  · refine iff_of_false ?_ ?_
    · intro hmeans
      exact hcpu (hmeans.cpu.mp hfront)
    · rw [hcode]
      simp
  · refine iff_of_false ?_ ?_
    · intro hmeans
      exact hmemory (hmeans.memory.mp hfront)
    · rw [hcode]
      simp
  · have hplain : ¬ERR_MEMORY_LIMIT <+: err.text := by
      intro hfront
      exact (classifyLinks_eq_none_iff.mp hcode err.text List.mem_cons_self).2
        (mentionsMemory_of_startsWith hfront)
    rw [htext]
    constructor
    · intro hmeans
      exact ⟨hcode, fun hfront => hcpu (hmeans.cpu.mp hfront)⟩
    · rintro ⟨-, hnot⟩
      exact ⟨iff_of_false hnot hcpu, iff_of_false hplain hmemory⟩

theorem mentionsCpu_allFuelConsumed : MentionsCpu "all fuel consumed by WebAssembly".toList :=
  .inl ⟨"all ".toList, " consumed by webassembly".toList, by decide⟩

theorem mentionsCpu_interrupt : MentionsCpu "interrupt".toList :=
  .inr (.inr ⟨[], [], by decide⟩)

theorem mentionsMemory_exceeds : MentionsMemory "exceeds memory limits".toList :=
  ⟨⟨"exceeds ".toList, " limits".toList, by decide⟩,
    .inl ⟨"exceeds memory ".toList, "s".toList, by decide⟩⟩

/-- The prefix of an error says what the error comes from exactly if no text in the
chain speaks of another limit first. -/
theorem prefixMeans_annotate_iff {err : WasmtimeError} (hnames : NamesCause err) :
    PrefixMeans (some err.cause) (annotate err) ↔ NoOtherLimit err := by
  unfold NoOtherLimit
  unfold NamesCause at hnames
  cases hcause : err.cause with
  | fuel =>
      rw [hcause] at hnames
      obtain ⟨link, hlink, hwithin⟩ := hnames
      simpa only [hcause] using prefixMeans_cpu_iff (.inl hcause)
        ⟨link, hlink, mentionsCpu_allFuelConsumed.of_isInfix hwithin⟩
  | interrupt =>
      rw [hcause] at hnames
      obtain ⟨link, hlink, hwithin⟩ := hnames
      simpa only [hcause] using prefixMeans_cpu_iff (.inr hcause)
        ⟨link, hlink, mentionsCpu_interrupt.of_isInfix hwithin⟩
  | memoryCap =>
      rw [hcause] at hnames
      obtain ⟨link, hlink, hwithin, hcpu⟩ := hnames
      simpa only [hcause] using prefixMeans_memory_iff hcause
        ⟨link, hlink, mentionsMemory_exceeds.of_isInfix hwithin, hcpu⟩
  | other => simpa only [hcause] using prefixMeans_other_iff hcause

/-! ## Runs -/

/-- The message of a run that failed has the prefix of what stopped it. -/
def MessageMeans (guest : GuestRun α) (outcome : Except Text Bytes) : Prop :=
  ∀ message, outcome = .error message →
    PrefixMeans ((stoppedBy guest).map WasmtimeError.cause) message

/-- The error of the runtime that ended the run, if there is one, speaks of no other
limit. -/
def StopsPlainly (guest : GuestRun α) : Prop := ∀ err ∈ stoppedBy guest, NoOtherLimit err

/-- The plugin's own message begins with neither prefix. -/
def RefusesPlainly (guest : GuestRun (Except Text Bytes)) : Prop :=
  stoppedBy guest = none → ∀ message, guest.ran = .ok (.error message) →
    ¬ERR_CPU_LIMIT <+: message ∧ ¬ERR_MEMORY_LIMIT <+: message

theorem messageMeans_drive_iff {guest : GuestRun Bytes}
    (hnames : ∀ err ∈ stoppedBy guest, NamesCause err) :
    MessageMeans guest (drive guest) ↔ StopsPlainly guest := by
  rcases callGuest_cases guest with ⟨err, hstopped, hcall⟩ | ⟨value, hstopped, -, hcall⟩
  · have hmeans := prefixMeans_annotate_iff (hnames err hstopped)
    simp only [MessageMeans, StopsPlainly, drive, hcall, hstopped]
    simpa using hmeans
  · simp [MessageMeans, StopsPlainly, drive, hcall, hstopped]

theorem prefixMeans_none_iff {message : Text} :
    PrefixMeans none message ↔ ¬ERR_CPU_LIMIT <+: message ∧ ¬ERR_MEMORY_LIMIT <+: message := by
  constructor
  · intro hmeans
    exact ⟨fun hfront => by simpa using hmeans.cpu.mp hfront,
      fun hfront => by simpa using hmeans.memory.mp hfront⟩
  · rintro ⟨hcpu, hmemory⟩
    exact ⟨iff_of_false hcpu (by simp), iff_of_false hmemory (by simp)⟩

theorem messageMeans_drivePluginRun_iff {guest : GuestRun (Except Text Bytes)}
    (hnames : ∀ err ∈ stoppedBy guest, NamesCause err) :
    MessageMeans guest (drivePluginRun guest) ↔ StopsPlainly guest ∧ RefusesPlainly guest := by
  rcases callGuest_cases guest with ⟨err, hstopped, hcall⟩ | ⟨value, hstopped, hran, hcall⟩
  · have hmeans := prefixMeans_annotate_iff (hnames err hstopped)
    have houtcome : drivePluginRun guest = .error (annotate err) := by
      rw [drivePluginRun, hcall]
      rfl
    simp only [MessageMeans, StopsPlainly, RefusesPlainly, houtcome, hstopped]
    simpa using hmeans
  · have houtcome : drivePluginRun guest = value := by
      rw [drivePluginRun, hcall]
      rfl
    simp only [MessageMeans, StopsPlainly, RefusesPlainly, houtcome, hstopped, hran]
    simp [prefixMeans_none_iff]

/-- On every driver the prefix of a failed run says what stopped the run exactly if
the texts that the plugin has a hand in speak of no other limit. -/
theorem messageMeans_iff (guest : GuestRun Bytes) (plugin : GuestRun (Except Text Bytes))
    (hguest : ∀ err ∈ stoppedBy guest, NamesCause err)
    (hplugin : ∀ err ∈ stoppedBy plugin, NamesCause err) :
    (MessageMeans guest (drive guest) ↔ StopsPlainly guest) ∧
      (MessageMeans plugin (drivePluginRun plugin) ↔
        StopsPlainly plugin ∧ RefusesPlainly plugin) :=
  ⟨messageMeans_drive_iff hguest, messageMeans_drivePluginRun_iff hplugin⟩

/-- A guest that spins until its fuel is gone. -/
def spinning : WasmtimeError where
  cause := .fuel
  text := "error while executing at wasm backtrace:\n    0:   0x1f - plugin!spin".toList
  sources := ["wasm trap: all fuel consumed by WebAssembly".toList]

/-- A guest that hits an unreachable instruction in the function of that name. -/
def trapIn (name : String) : WasmtimeError where
  cause := .other
  text := "error while executing at wasm backtrace:\n    0:   0x1f - plugin!".toList ++ name.toList
  sources := ["wasm trap: wasm `unreachable` instruction executed".toList]

theorem noOtherLimit_spinning : NoOtherLimit spinning := by
  intro earlier link later hlinks hmemory
  rcases earlier with _ | ⟨first, _ | ⟨second, more⟩⟩
  · obtain rfl := (List.cons.inj hlinks).1
    exact absurd (contains_iff.mpr hmemory.1.1) (by decide)
  · obtain rfl := (List.cons.inj (List.cons.inj hlinks).2).1
    exact absurd (contains_iff.mpr hmemory.1.1) (by decide)
  · cases (List.cons.inj (List.cons.inj hlinks).2).2 |> List.nil_eq_append_iff.mp |>.2

theorem messageMeans_iff_example :
    MessageMeans (⟨[.ok ()], .error spinning⟩ : GuestRun Bytes)
        (drive ⟨[.ok ()], .error spinning⟩) ∧
      MessageMeans (⟨[], .ok (.error "no budget".toList)⟩ : GuestRun (Except Text Bytes))
        (drivePluginRun ⟨[], .ok (.error "no budget".toList)⟩) := by
  obtain ⟨hguest, hplugin⟩ := messageMeans_iff ⟨[.ok ()], .error spinning⟩
    ⟨[], .ok (.error "no budget".toList)⟩
    (by
      intro err herr
      obtain rfl := Option.some.inj herr
      exact ⟨_, List.mem_cons_of_mem _ (List.mem_singleton_self _),
        "wasm trap: ".toList, [], by decide⟩)
    (by
      intro err herr
      cases herr)
  refine ⟨hguest.mpr ?_, hplugin.mpr ⟨?_, ?_⟩⟩
  · intro err herr
    obtain rfl := Option.some.inj herr
    exact noOtherLimit_spinning
  · intro err herr
    cases herr
  · intro _ message hmessage
    obtain rfl := Except.error.inj (Except.ok.inj hmessage)
    decide

/-- A plugin writes the prefix itself, and a trap in a function with a telling name
gets it from the host. -/
theorem not_messageMeans :
    ¬MessageMeans (⟨[], .ok (.error ERR_CPU_LIMIT)⟩ : GuestRun (Except Text Bytes))
        (drivePluginRun ⟨[], .ok (.error ERR_CPU_LIMIT)⟩) ∧
      ¬MessageMeans (⟨[], .error (trapIn "refuel")⟩ : GuestRun Bytes)
        (drive ⟨[], .error (trapIn "refuel")⟩) := by
  constructor
  · intro hmeans
    exact absurd ((hmeans ERR_CPU_LIMIT rfl).cpu.mp (List.prefix_refl _)) (by decide)
  · intro hmeans
    exact absurd ((hmeans (annotate (trapIn "refuel")) rfl).cpu.mp (by decide)) (by decide)

end HellohqRuntime.Limits.Annotation
