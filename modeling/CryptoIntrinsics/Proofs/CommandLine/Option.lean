import CryptoIntrinsics.Proofs.CommandLine.Word
import Mathlib.Data.List.Pairwise

namespace CryptoIntrinsics.CommandLine

namespace Switch

def long : Switch → String
  | help => "--help"
  | verbose => "--verbose"
  | algorithm => "--algo"
  | text => "--text"
  | hex => "--hex"
  | file => "--file"
  | sig => "--sig"
  | exponent => "--exp"
  | modulus => "--mod"

/-- An option with its value as one word. -/
def word (option : Switch × String) : String := option.1.long ++ "=" ++ option.2

def takesValue : Switch → Bool
  | help | verbose => false
  | _ => true

/-- Whether an option says where the message comes from. -/
def isSource : Switch → Bool
  | text | hex | file => true
  | _ => false

/-- Options that set different values. -/
def Apart (s t : Switch) : Prop := s ≠ t ∧ (s.isSource && t.isSource) = false

instance (s t : Switch) : Decidable (Apart s t) := inferInstanceAs (Decidable (_ ∧ _))

theorem Apart.symm {s t : Switch} (hapart : Apart s t) : Apart t s :=
  ⟨hapart.1.symm, by rw [Bool.and_comm]; exact hapart.2⟩

section Word

variable {names : List (String × Switch)} {options : List (Switch × String)}

theorem word_eq (option : Switch × String) :
    word option = String.ofList (option.1.long.toList ++ '=' :: option.2.toList) := by
  rw [← String.toList_inj, String.toList_ofList, word, String.toList_append, String.toList_append,
    List.append_assoc]
  rfl

theorem two_lt_length_long (s : Switch) : 2 < s.long.toList.length := by cases s <;> decide

theorem take_long (s : Switch) : s.long.toList.take 2 = ['-', '-'] := by cases s <;> decide

theorem not_mem_long (s : Switch) : '=' ∉ s.long.toList := by cases s <;> decide

theorem word_ne_separator (option : Switch × String) : word option ≠ "--" := by
  intro hsame
  have hlength := congrArg (fun text => text.toList.length) hsame
  have hlong := two_lt_length_long option.1
  simp only [word_eq, String.toList_ofList, List.length_append] at hlength
  have htwo : "--".toList.length = 2 := rfl
  omega

theorem tokens_words (hnames : ∀ entry ∈ names, '=' ∉ entry.1.toList)
    (hknown : ∀ option ∈ options, names.lookup option.1.long = some option.1) :
    Command.tokens names (options.map word) =
      .ok (options.map fun option => .valued option.1 option.2) := by
  have hwords : Token.ofWords names (options.map word) =
      .ok (options.map fun option => .valued option.1 option.2) := by
    induction options with
    | nil => rfl
    | cons option options ih =>
      obtain ⟨hoption, hrest⟩ := List.forall_mem_cons.1 hknown
      have hlookup : names.lookup (String.ofList option.1.long.toList) = some option.1 := by
        rw [String.ofList_toList]
        exact hoption
      have hfirst : Token.ofWord names (word option) = .ok (.valued option.1 option.2) := by
        rw [word_eq, Token.ofWord_append (two_lt_length_long _) (take_long _),
          Token.ofDashed_of_lookup (two_lt_length_long _) (not_mem_long _) hnames hlookup,
          String.ofList_toList]
      rw [List.map_cons, Token.ofWords_cons (word_ne_separator option), hfirst, ih hrest]
      rfl
  rw [Command.tokens, hwords]

/-- Before a command's name, no general option begins like one that has a value. -/
theorem exists_tokens_general {name : String} (hname : name.toList.head? ≠ some '-')
    (htakes : ∀ option ∈ options, option.1.takesValue = true) :
    ∃ tokens, Command.tokens general (name :: options.map word) = .ok tokens := by
  have halien : ∀ s : Switch, s.takesValue = true →
      ∀ entry ∈ general, ¬ s.long.toList <+: entry.1.toList := by
    intro s hs
    cases s with
    | help | verbose => cases hs
    | _ => decide
  have hwords : ∃ tokens, Token.ofWords general (options.map word) = .ok tokens := by
    induction options with
    | nil => exact ⟨[], rfl⟩
    | cons option options ih =>
      obtain ⟨hoption, hrest⟩ := List.forall_mem_cons.1 htakes
      obtain ⟨tokens, htokens⟩ := ih hrest
      have hnames : ∀ entry ∈ general, '=' ∉ entry.1.toList := by decide
      obtain ⟨token, htoken⟩ := Token.exists_ofDashed (two_lt_length_long option.1) (take_long _)
        (not_mem_long _) hnames (halien option.1 hoption) option.2.toList
      refine ⟨token :: tokens, ?_⟩
      rw [List.map_cons, Token.ofWords_cons (word_ne_separator option), word_eq,
        Token.ofWord_append (two_lt_length_long _) (take_long _), htoken, htokens]
      rfl
  obtain ⟨tokens, htokens⟩ := hwords
  refine ⟨.operand name :: tokens, ?_⟩
  rw [Command.tokens, Token.ofWords_cons (Token.ne_separator_of_not_dashed hname),
    Token.ofWord_of_not_dashed hname, htokens]
  rfl

end Word

end Switch

namespace Values

open Switch

def put (values : Values) (option : Switch × String) : Values :=
  match option.1 with
  | .algorithm => { values with algorithm := algorithmOf? option.2 }
  | .text => { values with source := some (.text (.ofWord option.2)) }
  | .hex => { values with source := some (.hex (.ofWord option.2)) }
  | .file => { values with source := some (.file (.ofWord option.2)) }
  | .sig => { values with sig := some (.ofWord option.2) }
  | .exponent => { values with exponent := some (.ofWord option.2) }
  | .modulus => { values with modulus := some (.ofWord option.2) }
  | .help | .verbose => values

theorem put_comm {one other : Switch × String} (hapart : Apart one.1 other.1) (values : Values) :
    (values.put one).put other = (values.put other).put one := by
  obtain ⟨s, value⟩ := one
  obtain ⟨t, word⟩ := other
  change Apart s t at hapart
  cases s <;> cases t <;> first | rfl | exact absurd hapart (by decide)

theorem source_put {one other : Switch × String} (hapart : Apart one.1 other.1)
    (hsource : other.1.isSource = true) (values : Values) :
    (values.put one).source = values.source := by
  obtain ⟨s, value⟩ := one
  have hnot : s.isSource = false := by
    have hboth := hapart.2
    rwa [hsource, Bool.and_true] at hboth
  cases s with
  | text | hex | file => cases hnot
  | _ => rfl

/-- Options that can be taken where there is no source yet: each has a value, and an algorithm is
    named by its name. -/
def IsTaken (option : Switch × String) : Prop :=
  option.1.takesValue = true ∧
    (option.1 = .algorithm → ∃ algorithm : Digest.Algorithm, option.2 = algorithm.name)

theorem withValue_of_isTaken {values : Values} {option : Switch × String} (htaken : IsTaken option)
    (hfree : option.1.isSource = true → values.source = none) :
    withValue values option.1 (.ofWord option.2) = .ok (values.put option) := by
  obtain ⟨s, value⟩ := option
  cases s with
  | help | verbose => cases htaken.1
  | algorithm =>
    obtain ⟨algorithm, rfl⟩ := htaken.2 rfl
    cases algorithm <;> rfl
  | text | hex | file =>
    have hnone := hfree rfl
    simp only [withValue, withSource, hnone, put]
  | sig | exponent | modulus => rfl

/-- Options that are apart are all taken. -/
theorem ofTokens_options {options : List (Switch × String)}
    (htaken : ∀ option ∈ options, IsTaken option)
    (hapart : options.Pairwise fun one other => Apart one.1 other.1) {values : Values}
    (hfree : ∀ option ∈ options, option.1.isSource = true → values.source = none) :
    ofTokens values (options.map fun option => .valued option.1 option.2) =
      .ok (options.foldl put values) := by
  induction options generalizing values with
  | nil => rfl
  | cons option options ih =>
    obtain ⟨hoption, hrest⟩ := List.forall_mem_cons.1 htaken
    obtain ⟨hfirst, hothers⟩ := List.pairwise_cons.1 hapart
    have hstep := withValue_of_isTaken hoption (hfree option List.mem_cons_self)
    have hlater : ∀ other ∈ options, other.1.isSource = true →
        (values.put option).source = none := by
      intro other hother hsource
      rw [source_put (hfirst other hother) hsource]
      exact hfree other (List.mem_cons_of_mem _ hother) hsource
    rw [List.map_cons, ofTokens, hstep, List.foldl_cons, ← ih hrest hothers hlater]
    rfl

/-- The order of options that are apart makes no difference. -/
theorem foldl_put_perm {options others : List (Switch × String)} (hperm : options.Perm others)
    (hapart : others.Pairwise fun one other => Apart one.1 other.1) (values : Values) :
    options.foldl put values = others.foldl put values := by
  have hsymm : Std.Symm fun one other : Switch × String => ∀ values : Values,
      (values.put one).put other = (values.put other).put one :=
    ⟨fun _ _ hswap values => (hswap values).symm⟩
  have hcomm : ∀ one ∈ others, ∀ other ∈ others, ∀ values : Values,
      (values.put one).put other = (values.put other).put one := fun one hone other hother =>
    List.Pairwise.forall_of_forall (fun _ _ _ => rfl) (hapart.imp put_comm) hone hother
  exact (hperm.symm.foldl_eq' hcomm values).symm

theorem ofTokens_perm {options others : List (Switch × String)} (hperm : options.Perm others)
    (htaken : ∀ option ∈ others, IsTaken option)
    (hapart : (others.map Prod.fst).Pairwise Apart) :
    ofTokens .start (options.map fun option => .valued option.1 option.2) =
      .ok (others.foldl put .start) := by
  have hpairs := List.pairwise_map.1 hapart
  rw [ofTokens_options (fun option hoption => htaken option (hperm.mem_iff.1 hoption))
    (hperm.symm.pairwise hpairs Apart.symm) (fun _ _ _ => rfl), foldl_put_perm hperm hpairs]

end Values

namespace Command

open Switch

/-- A command with options that have values is read by its name. -/
theorem ofWords_named {name : String} (hname : name.toList.head? ≠ some '-')
    {options : List (Switch × String)}
    (htakes : ∀ option ∈ options, option.1.takesValue = true) :
    ofWords (name :: options.map word) = ofName name (options.map word) := by
  obtain ⟨found, hfound⟩ := exists_tokens_general hname htakes
  have hafter : afterOptions (name :: options.map word) = ofName name (options.map word) := by
    rw [afterOptions, Token.ofWord_of_not_dashed hname]
    exact Token.ne_separator_of_not_dashed hname
  rw [ofWords, hfound]
  exact hafter

section Perm

variable {options others : List (Switch × String)} {values : Values} {source : Source}

theorem ofWords_digest (hperm : options.Perm others)
    (htaken : ∀ option ∈ others, Values.IsTaken option)
    (hapart : (others.map Prod.fst).Pairwise Apart)
    (hknown : ∀ s ∈ others.map Prod.fst, Switch.digest.lookup s.long = some s)
    (hvalues : others.foldl Values.put .start = values) (hsource : values.source = some source) :
    ofWords ("digest" :: options.map word) = .ok (.digest values.algorithm source) := by
  have hmem {option : Switch × String} (hoption : option ∈ options) := hperm.mem_iff.1 hoption
  rw [ofWords_named (by decide) fun option hoption => (htaken option (hmem hoption)).1, ofName,
    tokens_words (by decide) fun option hoption => hknown _ (List.mem_map_of_mem (hmem hoption))]
  dsimp only [bind, Except.bind]
  rw [Values.ofTokens_perm hperm htaken hapart, hvalues]
  dsimp only
  rw [hsource]
  rfl

theorem ofWords_verification (hperm : options.Perm others)
    (htaken : ∀ option ∈ others, Values.IsTaken option)
    (hapart : (others.map Prod.fst).Pairwise Apart)
    (hknown : ∀ s ∈ others.map Prod.fst, Switch.verification.lookup s.long = some s)
    {sig exponent modulus : Given} {algorithm : Option Digest.Algorithm}
    (hvalues : others.foldl Values.put .start =
      ⟨algorithm, some source, some sig, some exponent, some modulus⟩) :
    ofWords ("verify-rsa" :: options.map word) =
      .ok (.verifyRsa source sig exponent modulus) := by
  have hmem {option : Switch × String} (hoption : option ∈ options) := hperm.mem_iff.1 hoption
  rw [ofWords_named (by decide) fun option hoption => (htaken option (hmem hoption)).1, ofName,
    tokens_words (by decide) fun option hoption => hknown _ (List.mem_map_of_mem (hmem hoption))]
  dsimp only [bind, Except.bind]
  rw [Values.ofTokens_perm hperm htaken hapart, hvalues]
  rfl

end Perm

end Command

end CryptoIntrinsics.CommandLine
