import Foco.RustText

/-!
Which stored memories a prompt retrieves: its search terms, lower-cased, and grams of its CJK
characters are looked for in the text of a fact, lower-cased too, but in ASCII only.
-/
namespace Foco.MemoryRetrieval
open RustText

/-- The tables of Unicode that the search uses. -/
structure Unicode where
  isAlphanumeric : Char → Bool
  toLowercase : Char → Text

/-! ## Search terms -/

structure TermState where
  terms : List Text
  seen : List Text
  current : Text

/-- `push_memory_fts_term`. -/
def pushMemoryFtsTerm (state : TermState) : TermState :=
  let term := trim state.current
  if 2 ≤ term.length ∧ term ∉ state.seen then
    { terms := state.terms ++ [term], seen := term :: state.seen, current := [] }
  else { state with current := [] }

/-- One character of `memory_search_terms`. -/
def addCharacter (unicode : Unicode) (c : Char) (state : TermState) : TermState :=
  if unicode.isAlphanumeric c then
    let state := { state with current := state.current ++ unicode.toLowercase c }
    if 64 ≤ state.current.length then pushMemoryFtsTerm state else state
  else pushMemoryFtsTerm state

/-- The loop of `memory_search_terms`. -/
def addCharacters (unicode : Unicode) : Text → TermState → TermState
  | [], state => state
  | c :: rest, state =>
    if 12 ≤ (addCharacter unicode c state).terms.length then addCharacter unicode c state
    else addCharacters unicode rest (addCharacter unicode c state)

/-- `memory_search_terms`. -/
def memorySearchTerms (unicode : Unicode) (text : Text) : List Text :=
  (pushMemoryFtsTerm (addCharacters unicode text ⟨[], [], []⟩)).terms

def memoryPromptStopTerms : List Text :=
  ["a", "an", "and", "are", "as", "at", "be", "but", "by", "can", "do", "does", "for", "from", "how",
    "i", "in", "is", "it", "of", "on", "or", "prompt", "that", "the", "this", "to", "with", "what",
    "when", "where", "why", "you"].map String.toList

/-- `memory_prompt_search_terms`. -/
def memoryPromptSearchTerms (unicode : Unicode) (text : Text) : List Text :=
  (memorySearchTerms unicode text).filter fun term => term ∉ memoryPromptStopTerms

/-! ## Grams -/

/-- `is_cjk_memory_character`. -/
def isCjkMemoryCharacter (c : Char) : Bool :=
  0x3400 ≤ c.toNat && c.toNat ≤ 0x4DBF || 0x4E00 ≤ c.toNat && c.toNat ≤ 0x9FFF ||
    0xF900 ≤ c.toNat && c.toNat ≤ 0xFAFF

/-- `slice::windows`. -/
def windows (size : Nat) (run : Text) : List Text :=
  (run.tails.map (List.take size)).filter fun window => window.length = size

/-- One window: nothing is added once there are enough grams. The set of those seen has the same
elements. -/
def pushGram (grams : List Text) (window : Text) : List Text :=
  if 24 ≤ grams.length ∨ window ∈ grams then grams else grams ++ [window]

/-- `push_cjk_memory_prompt_grams`. -/
def pushCjkMemoryPromptGrams (run : Text) (grams : List Text) : List Text :=
  ([4, 3, 2].flatMap fun size => windows size run).foldl pushGram grams

/-- The loop of `cjk_memory_prompt_grams`, with the push behind it. -/
def cjkGrams : Text → Text → List Text → List Text
  | run, [], grams => pushCjkMemoryPromptGrams run grams
  | run, c :: rest, grams =>
    if isCjkMemoryCharacter c then cjkGrams (run ++ [c]) rest grams
    else cjkGrams [] rest (pushCjkMemoryPromptGrams run grams)

/-- `cjk_memory_prompt_grams`. -/
def cjkMemoryPromptGrams (text : Text) : List Text := cjkGrams [] text []

/-! ## The search of a prompt -/

/-- `memory_prompt_contains_terms`. -/
def memoryPromptContainsTerms (unicode : Unicode) (text : Text) : List Text :=
  (cjkMemoryPromptGrams text).foldl
    (fun terms gram => if gram ∈ terms then terms else terms ++ [gram])
    (memoryPromptSearchTerms unicode text)

/-- `memory_fts_query_from_terms`. -/
def memoryFtsQueryFromTerms (terms : List Text) : Text :=
  List.intercalate " OR ".toList (terms.map fun term => '"' :: term ++ ['"'])

structure MemoryPromptSearch where
  ftsQuery : Text
  containsTerms : List Text

/-- `memory_prompt_search`. -/
def memoryPromptSearch (unicode : Unicode) (text : Text) : Option MemoryPromptSearch :=
  let terms := memoryPromptSearchTerms unicode text
  if terms = [] then none
  else some ⟨memoryFtsQueryFromTerms terms, memoryPromptContainsTerms unicode text⟩

/-- `memory_fact_matches_prompt_terms`, of the text of a fact. -/
def memoryFactMatchesPromptTerms (fact : Text) (queryTerms : List Text) : Bool :=
  if queryTerms = [] then false
  else queryTerms.any fun term => containsText term (toAsciiLowercase fact)

/-! ## What is found -/

/-- What is relied on of the tables: ASCII is lower-cased as ASCII, and what was lower-cased stays. -/
structure Unicode.Lawful (unicode : Unicode) : Prop where
  ascii : ∀ c : Char, c.toNat < 128 → unicode.toLowercase c = [c.toLower]
  stable : ∀ c, ∀ lower ∈ unicode.toLowercase c, unicode.toLowercase lower = [lower]

/-- Two CJK characters stand side by side. -/
def CjkPair (text : Text) : Prop :=
  ∃ first second, isCjkMemoryCharacter first = true ∧ isCjkMemoryCharacter second = true ∧
    [first, second] <:+: text

/-- Some stretch of a text has no capital letters but ASCII ones and is, in lower case, one of the
search terms of the text; or two CJK characters stand side by side. -/
def Retrievable (unicode : Unicode) (text : Text) : Prop :=
  CjkPair text ∨ ∃ stretch, stretch <:+: text ∧
    (∀ c ∈ stretch, unicode.toLowercase c = [c.toLower]) ∧
    stretch.flatMap unicode.toLowercase ∈ memoryPromptSearchTerms unicode text

/-- A prompt that is the text of a fact retrieves the fact. -/
def Retrieves (unicode : Unicode) (text : Text) : Prop :=
  ∃ search, memoryPromptSearch unicode text = some search ∧
    memoryFactMatchesPromptTerms text search.containsTerms = true

section Grams

variable {text run gram : Text} {grams : List Text}

theorem mem_windows {size : Nat} : gram ∈ windows size run ↔ gram <:+: run ∧ gram.length = size := by
  rw [windows, List.mem_filter, List.mem_map, decide_eq_true_iff]
  refine and_congr_left fun length => ?_
  rw [List.infix_iff_prefix_suffix]
  constructor
  · rintro ⟨tail, mem, rfl⟩
    exact ⟨tail, List.take_prefix _ _, (List.mem_tails _ _).mp mem⟩
  · rintro ⟨tail, front, suffix⟩
    refine ⟨tail, (List.mem_tails _ _).mpr suffix, ?_⟩
    rw [← length]
    exact (List.prefix_iff_eq_take.mp front).symm

/-- The elements that a fold may add keep what holds of all. -/
theorem mem_pushGrams {found : List Text} : gram ∈ found.foldl pushGram grams →
    gram ∈ grams ∨ gram ∈ found := by
  induction found generalizing grams with
  | nil => exact .inl
  | cons window found ih =>
    intro mem
    obtain mem | mem := ih mem
    · rw [pushGram] at mem
      split at mem
      · exact .inl mem
      · obtain mem | mem := List.mem_append.mp mem
        · exact .inl mem
        · exact .inr (List.mem_cons.mpr (.inl (List.mem_singleton.mp mem)))
    · exact .inr (List.mem_cons_of_mem _ mem)

theorem pushGrams_ne_nil {found : List Text} (some_ : grams ≠ [] ∨ found ≠ []) :
    found.foldl pushGram grams ≠ [] := by
  induction found generalizing grams with
  | nil => exact some_.resolve_right (by simp)
  | cons window found ih =>
    refine ih (.inl ?_)
    rw [pushGram]
    split
    · next full =>
      rintro rfl
      simp at full
    · simp

theorem pushCjk_ne_nil (some_ : grams ≠ [] ∨ 2 ≤ run.length) :
    pushCjkMemoryPromptGrams run grams ≠ [] := by
  refine pushGrams_ne_nil (some_.imp_right fun long => ?_)
  have pair : run.take 2 ∈ windows 2 run :=
    mem_windows.mpr ⟨(List.take_prefix 2 run).isInfix, by rw [List.length_take]; omega⟩
  exact List.ne_nil_of_mem (List.mem_flatMap.mpr ⟨2, by simp, pair⟩)

theorem cjkGrams_ne_nil (some_ : grams ≠ []) : cjkGrams run text grams ≠ [] := by
  induction text generalizing run grams with
  | nil => exact pushCjk_ne_nil (.inl some_)
  | cons c text ih =>
    rw [cjkGrams]
    split
    · exact ih some_
    · exact ih (pushCjk_ne_nil (.inl some_))

/-- A pair stands on one side of what is neither of the two. -/
theorem pair_infix_append {first second c : Char} {front back : Text} (ne : first ≠ c)
    (ne' : second ≠ c) (pair : [first, second] <:+: front ++ c :: back) :
    [first, second] <:+: front ∨ [first, second] <:+: back := by
  induction front with
  | nil =>
    obtain starts | later := List.infix_cons_iff.mp pair
    · exact absurd (List.cons_prefix_cons.mp starts).1 ne
    · exact .inr later
  | cons x front ih =>
    obtain starts | later := List.infix_cons_iff.mp pair
    · obtain ⟨rfl, next⟩ := List.cons_prefix_cons.mp starts
      cases front with
      | nil => exact absurd (List.cons_prefix_cons.mp next).1 ne'
      | cons y front =>
        obtain ⟨rfl, -⟩ := List.cons_prefix_cons.mp next
        exact .inl ⟨[], front, rfl⟩
    · exact (ih later).imp_left fun inside => inside.trans (List.infix_cons List.infix_rfl)

/-- Where two CJK characters stand side by side there is a gram. -/
theorem cjkGrams_of_pair (run : Text) (grams : List Text) (pair : CjkPair (run ++ text)) :
    cjkGrams run text grams ≠ [] := by
  obtain ⟨first, second, left, right, inside⟩ := pair
  induction text generalizing run grams with
  | nil =>
    rw [List.append_nil] at inside
    exact pushCjk_ne_nil (.inr inside.length_le)
  | cons c text ih =>
    rw [cjkGrams]
    split
    · refine ih _ _ ?_
      rwa [List.append_assoc, List.singleton_append]
    · next other =>
      have ne : first ≠ c := by
        rintro rfl
        exact other left
      have ne' : second ≠ c := by
        rintro rfl
        exact other right
      obtain here | later := pair_infix_append ne ne' inside
      · exact cjkGrams_ne_nil (pushCjk_ne_nil (.inr here.length_le))
      · exact ih _ _ later

/-- A gram is a stretch of at least two CJK characters. -/
structure IsGram (text gram : Text) : Prop where
  within : gram <:+: text
  cjk : ∀ c ∈ gram, isCjkMemoryCharacter c = true
  long : 2 ≤ gram.length

theorem mem_pushCjk (cjk : ∀ c ∈ run, isCjkMemoryCharacter c = true) (within : run <:+: text)
    (sound : ∀ gram ∈ grams, IsGram text gram) :
    ∀ gram ∈ pushCjkMemoryPromptGrams run grams, IsGram text gram := by
  intro gram mem
  obtain mem | mem := mem_pushGrams mem
  · exact sound gram mem
  · obtain ⟨size, sized, mem⟩ := List.mem_flatMap.mp mem
    obtain ⟨inside, length⟩ := mem_windows.mp mem
    refine ⟨inside.trans within, fun c there => cjk c (inside.subset there), ?_⟩
    have small : ∀ size ∈ [4, 3, 2], 2 ≤ size := by decide
    exact length ▸ small size sized

theorem mem_cjkGrams (before : Text) (cjk : ∀ c ∈ run, isCjkMemoryCharacter c = true)
    (sound : ∀ gram ∈ grams, IsGram (before ++ run ++ text) gram) :
    ∀ gram ∈ cjkGrams run text grams, IsGram (before ++ run ++ text) gram := by
  induction text generalizing before run grams with
  | nil => exact mem_pushCjk cjk ⟨before, [], rfl⟩ sound
  | cons c text ih =>
    rw [cjkGrams]
    split
    · next here =>
      have shifted : before ++ run ++ c :: text = before ++ (run ++ [c]) ++ text := by simp
      rw [shifted] at sound ⊢
      refine ih before (fun other mem => ?_) sound
      obtain mem | mem := List.mem_append.mp mem
      · exact cjk other mem
      · rwa [List.mem_singleton.mp mem]
    · have shifted : before ++ run ++ c :: text = (before ++ run ++ [c]) ++ [] ++ text := by simp
      have pushed := mem_pushCjk cjk ⟨before, c :: text, rfl⟩ sound
      rw [shifted] at pushed ⊢
      exact ih _ (fun other mem => absurd mem List.not_mem_nil) pushed

theorem cjkMemoryPromptGrams_sound : ∀ gram ∈ cjkMemoryPromptGrams text, IsGram text gram :=
  mem_cjkGrams [] (fun _ mem => absurd mem List.not_mem_nil)
    fun _ mem => absurd mem List.not_mem_nil

theorem cjkPair_of_gram (isGram : IsGram text gram) : CjkPair text := by
  obtain ⟨within, cjk, long⟩ := isGram
  match gram, long with
  | first :: second :: rest, _ =>
    exact ⟨first, second, cjk first (by simp), cjk second (by simp),
      List.IsInfix.trans ⟨[], rest, rfl⟩ within⟩

theorem toLower_of_high {c : Char} (high : 128 ≤ c.toNat) : c.toLower = c := by
  unfold Char.toLower
  rw [dif_neg]
  intro upper
  have bound : c.toNat ≤ 90 := UInt32.le_iff_toNat_le.mp upper.2
  omega

/-- ASCII lower case leaves a gram. -/
theorem toAsciiLowercase_gram (isGram : IsGram text gram) : toAsciiLowercase gram = gram := by
  refine (List.map_congr_left fun c mem => ?_).trans (List.map_id gram)
  have cjk := isGram.cjk c mem
  have high : 128 ≤ c.toNat := by
    simp only [isCjkMemoryCharacter, Bool.or_eq_true, Bool.and_eq_true, decide_eq_true_eq] at cjk
    omega
  exact toLower_of_high high

end Grams

section Retrieval

variable {unicode : Unicode} {text term : Text}

theorem mem_containsTerms : term ∈ memoryPromptContainsTerms unicode text ↔
    term ∈ memoryPromptSearchTerms unicode text ∨ term ∈ cjkMemoryPromptGrams text := by
  rw [memoryPromptContainsTerms]
  generalize memoryPromptSearchTerms unicode text = terms
  induction cjkMemoryPromptGrams text generalizing terms with
  | nil => simp
  | cons gram grams ih =>
    rw [List.foldl_cons, ih, List.mem_cons]
    split
    · next there =>
      refine ⟨Or.imp_right .inr, ?_⟩
      rintro (mem | rfl | mem)
      · exact .inl mem
      · exact .inl there
      · exact .inr mem
    · rw [List.mem_append, List.mem_singleton, or_assoc]

theorem matches_iff {terms : List Text} : memoryFactMatchesPromptTerms text terms = true ↔
    ∃ term ∈ terms, term <:+: toAsciiLowercase text := by
  rw [memoryFactMatchesPromptTerms]
  split
  · next none_ => simp [none_]
  · rw [List.any_eq_true]
    exact exists_congr fun term => and_congr_right fun _ => containsText_iff

theorem retrieves_iff (some_ : memoryPromptSearchTerms unicode text ≠ []) :
    Retrieves unicode text ↔
      ∃ term, (term ∈ memoryPromptSearchTerms unicode text ∨ term ∈ cjkMemoryPromptGrams text) ∧
        term <:+: toAsciiLowercase text := by
  have found : memoryPromptSearch unicode text = some
      ⟨memoryFtsQueryFromTerms (memoryPromptSearchTerms unicode text),
        memoryPromptContainsTerms unicode text⟩ := if_neg some_
  rw [Retrieves, found]
  simp only [Option.some.injEq, exists_eq_left', matches_iff, mem_containsTerms]

/-! ### Where the terms come from -/

/-- The terms are from stretches of the text, and what is collected ends where it was read to. -/
structure FromText (unicode : Unicode) (text before : Text) (state : TermState) : Prop where
  terms : ∀ term ∈ state.terms,
    ∃ stretch, stretch <:+: text ∧ term <:+: stretch.flatMap unicode.toLowercase
  current : ∃ stretch, stretch <:+ before ∧ state.current = stretch.flatMap unicode.toLowercase

theorem trim_infix (text : Text) : trim text <:+: text :=
  (List.rdropWhile_prefix isWhitespace _).isInfix.trans
    (List.dropWhile_suffix isWhitespace).isInfix

theorem FromText.push {before : Text} {state : TermState} (read : before <+: text)
    (held : FromText unicode text before state) :
    FromText unicode text before (pushMemoryFtsTerm state) := by
  obtain ⟨terms, stretch, ends, collected⟩ := held
  rw [pushMemoryFtsTerm]
  split
  · refine ⟨fun term mem => ?_, [], List.nil_suffix, rfl⟩
    obtain mem | mem := List.mem_append.mp mem
    · exact terms term mem
    · rw [List.mem_singleton.mp mem]
      exact ⟨stretch, ends.isInfix.trans read.isInfix, collected ▸ trim_infix state.current⟩
  · exact ⟨terms, [], List.nil_suffix, rfl⟩

theorem FromText.read {before : Text} {state : TermState} {c : Char}
    (held : FromText unicode text before state) (none_ : state.current = []) :
    FromText unicode text (before ++ [c]) state :=
  ⟨held.terms, [], List.nil_suffix, none_⟩

theorem push_current (state : TermState) : (pushMemoryFtsTerm state).current = [] := by
  rw [pushMemoryFtsTerm]
  split <;> rfl

theorem FromText.addCharacter {before : Text} {state : TermState} {c : Char}
    (read : before ++ [c] <+: text) (held : FromText unicode text before state) :
    FromText unicode text (before ++ [c]) (addCharacter unicode c state) := by
  have front : before <+: text := (List.prefix_append before [c]).trans read
  rw [MemoryRetrieval.addCharacter]
  split
  · obtain ⟨terms, stretch, ends, collected⟩ := held
    have grown : FromText unicode text (before ++ [c])
        { state with current := state.current ++ unicode.toLowercase c } := by
      refine ⟨terms, stretch ++ [c], ?_, by simp [collected]⟩
      obtain ⟨rest, rfl⟩ := ends
      exact ⟨rest, (List.append_assoc _ _ _).symm⟩
    dsimp only
    split
    · exact grown.push read
    · exact grown
  · exact (held.push front).read (push_current state)

theorem FromText.addCharacters {before rest : Text} {state : TermState}
    (whole : before ++ rest = text) (held : FromText unicode text before state) :
    ∃ before', before' <+: text ∧
      FromText unicode text before' (addCharacters unicode rest state) := by
  induction rest generalizing before state with
  | nil => exact ⟨before, ⟨[], whole⟩, held⟩
  | cons c rest ih =>
    have whole' : before ++ [c] ++ rest = text := by rw [← whole]; simp
    have next := held.addCharacter ⟨rest, whole'⟩
    rw [MemoryRetrieval.addCharacters]
    split
    · exact ⟨before ++ [c], ⟨rest, whole'⟩, next⟩
    · exact ih whole' next

theorem searchTerm_from (mem : term ∈ memorySearchTerms unicode text) :
    ∃ stretch, stretch <:+: text ∧ term <:+: stretch.flatMap unicode.toLowercase := by
  have start : FromText unicode text [] ⟨[], [], []⟩ :=
    ⟨fun _ mem => absurd mem List.not_mem_nil, [], List.nil_suffix, rfl⟩
  obtain ⟨before, read, held⟩ := start.addCharacters (List.nil_append text)
  exact (held.push read).terms term mem

theorem promptTerm_from (mem : term ∈ memoryPromptSearchTerms unicode text) :
    ∃ stretch, stretch <:+: text ∧ term <:+: stretch.flatMap unicode.toLowercase :=
  searchTerm_from (List.mem_of_mem_filter mem)

/-- Lower case does not change a term any more. -/
theorem promptTerm_stable (lawful : unicode.Lawful)
    (mem : term ∈ memoryPromptSearchTerms unicode text) :
    ∀ c ∈ term, unicode.toLowercase c = [c] := by
  intro c there
  obtain ⟨stretch, -, within⟩ := promptTerm_from mem
  obtain ⟨source, -, lower⟩ := List.mem_flatMap.mp (within.subset there)
  exact lawful.stable source c lower

theorem flatMap_lowercase {stretch : Text}
    (plain : ∀ c ∈ stretch, unicode.toLowercase c = [c.toLower]) :
    stretch.flatMap unicode.toLowercase = toAsciiLowercase stretch := by
  induction stretch with
  | nil => rfl
  | cons c stretch ih =>
    rw [List.flatMap_cons, plain c List.mem_cons_self,
      ih fun other mem => plain other (List.mem_cons_of_mem _ mem)]
    rfl

end Retrieval

/-- The text of a fact retrieves the fact exactly if two CJK characters stand in it side by side, or
some stretch without other capital letters than ASCII ones is one of its search terms. -/
theorem retrieves_iff_retrievable {unicode : Unicode} (lawful : unicode.Lawful) {text : Text}
    (some_ : memoryPromptSearchTerms unicode text ≠ []) :
    Retrieves unicode text ↔ Retrievable unicode text := by
  rw [retrieves_iff some_]
  constructor
  · rintro ⟨term, mem | mem, within⟩
    · obtain ⟨stretch, inside, rfl⟩ := List.infix_map_iff.mp within
      have plain : ∀ c ∈ stretch, unicode.toLowercase c = [c.toLower] := by
        intro c there
        by_cases ascii : c.toNat < 128
        · exact lawful.ascii c ascii
        · have same : c.toLower = c := toLower_of_high (Nat.not_lt.mp ascii)
          have lower := promptTerm_stable lawful mem c.toLower (List.mem_map_of_mem there)
          rwa [same] at lower ⊢
      refine .inr ⟨stretch, inside, plain, ?_⟩
      rw [flatMap_lowercase plain]
      exact mem
    · exact .inl (cjkPair_of_gram (cjkMemoryPromptGrams_sound term mem))
  · rintro (pair | ⟨stretch, inside, plain, mem⟩)
    · obtain ⟨gram, mem⟩ := List.exists_mem_of_ne_nil _
        (cjkGrams_of_pair [] [] pair)
      have isGram := cjkMemoryPromptGrams_sound gram mem
      refine ⟨gram, .inr mem, ?_⟩
      rw [← toAsciiLowercase_gram isGram]
      exact isGram.within.map Char.toLower
    · refine ⟨_, .inl mem, ?_⟩
      rw [flatMap_lowercase plain]
      exact inside.map Char.toLower

/-! One word that begins with a capital letter outside ASCII. -/

/-- The tables as far as one letter beyond ASCII. -/
def umlautTables : Unicode where
  isAlphanumeric c := c.isAlphanum || c = 'Ä' || c = 'ä'
  toLowercase c := if c = 'Ä' then ['ä'] else [c.toLower]

theorem stable_of_ascii : ∀ n < 128, (if (Char.ofNat n).toLower = 'Ä' then ['ä']
    else [(Char.ofNat n).toLower.toLower]) = [(Char.ofNat n).toLower] := by decide

theorem umlautTables_lawful : umlautTables.Lawful where
  ascii c small := by
    have other : c ≠ 'Ä' := by
      rintro rfl
      exact absurd small (by decide)
    exact if_neg other
  stable c lower mem := by
    simp only [umlautTables] at mem ⊢
    split at mem
    · rw [List.mem_singleton.mp mem]
      decide
    · next other =>
      rw [List.mem_singleton.mp mem]
      by_cases small : c.toNat < 128
      · rw [← Char.ofNat_toNat c]
        exact stable_of_ascii c.toNat small
      · rw [toLower_of_high (Nat.not_lt.mp small), if_neg other,
          toLower_of_high (Nat.not_lt.mp small)]

def capitalWord : Text := "ÄRGER".toList

theorem capitalWord_terms :
    memoryPromptSearchTerms umlautTables capitalWord = ["ärger".toList] := by decide

/-- The word is a search term of itself, but the fact is not retrieved by its own text. -/
theorem capitalWord_not_retrieved : memoryPromptSearchTerms umlautTables capitalWord ≠ [] ∧
    ¬ Retrieves umlautTables capitalWord := by
  have some_ : memoryPromptSearchTerms umlautTables capitalWord ≠ [] := by
    rw [capitalWord_terms]
    exact List.cons_ne_nil _ _
  refine ⟨some_, fun retrieved => ?_⟩
  obtain ⟨term, mem | mem, within⟩ := (retrieves_iff some_).mp retrieved
  · rw [capitalWord_terms, List.mem_singleton] at mem
    rw [mem, ← containsText_iff] at within
    exact absurd within (by decide)
  · have none_ : cjkMemoryPromptGrams capitalWord = [] := by decide
    rw [none_] at mem
    exact absurd mem List.not_mem_nil

theorem capitalWord_iff :
    Retrieves umlautTables capitalWord ↔ Retrievable umlautTables capitalWord :=
  retrieves_iff_retrievable umlautTables_lawful (by
    rw [capitalWord_terms]
    exact List.cons_ne_nil _ _)

end Foco.MemoryRetrieval
