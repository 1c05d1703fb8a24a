import CryptoIntrinsics.Proofs.CommandLine.Word

namespace CryptoIntrinsics.CommandLine

variable {c : Char}

namespace Token

variable {Switch : Type} {names : List (String × Switch)}

/-- The character is neither in the operand nor in the value that a token has. -/
def Lacks (c : Char) : Token Switch → Prop
  | operand word => c ∉ word.toList
  | valued _ value => c ∉ value.toList
  | _ => True

theorem not_mem_of_splitValue {word : List Char} (hword : c ∉ word) :
    ∀ value ∈ (splitValue word).2, c ∉ value.toList := by
  rw [splitValue]
  split
  · intro value hvalue
    cases hvalue
  · next first value hrest =>
    rintro _ ⟨⟩ hin
    rw [String.toList_ofList] at hin
    have hmem : c ∈ word.dropWhile (· != '=') := hrest ▸ List.mem_cons_of_mem first hin
    exact hword ((List.dropWhile_suffix _).subset hmem)

theorem lacks_found {value : Option String} (hvalue : ∀ text ∈ value, c ∉ text.toList)
    (name : List Char) (switch : Switch) : (found name switch value).Lacks c := by
  cases value with
  | none => trivial
  | some text =>
    rw [found]
    split
    · trivial
    · exact hvalue text rfl

theorem lacks_of_ofDashed {word : List Char} (hword : c ∉ word) {token : Token Switch}
    (htoken : ofDashed names word = .ok token) : token.Lacks c := by
  have hoperand : (operand (String.ofList word) : Token Switch).Lacks c := by
    rw [Lacks, String.toList_ofList]
    exact hword
  have hvalue := not_mem_of_splitValue hword
  rw [ofDashed] at htoken
  generalize splitValue word = split at htoken hvalue
  obtain ⟨stem, value⟩ := split
  dsimp only at htoken hvalue
  split at htoken
  · cases htoken
    trivial
  · cases htoken
    exact hoperand
  · cases htoken
    exact lacks_found hvalue _ _
  · split at htoken
    · next only hcandidates =>
      cases htoken
      have hmem := List.mem_singleton_self token
      rw [← hcandidates] at hmem
      split at hmem
      · obtain ⟨entry, -, rfl⟩ := List.mem_map.1 hmem
        exact lacks_found hvalue _ _
      · obtain ⟨entry, -, rfl⟩ := List.mem_map.1 hmem
        trivial
    · cases htoken
    · split at htoken
      · cases htoken
        exact hoperand
      · cases htoken
        trivial

theorem lacks_of_ofWord {word : String} (hword : c ∉ word.toList) {token : Token Switch}
    (htoken : ofWord names word = .ok token) : token.Lacks c := by
  rw [ofWord] at htoken
  split at htoken
  · next rest htext =>
    rw [htext] at hword
    exact lacks_of_ofDashed hword htoken
  · cases htoken
    exact hword

theorem lacks_of_ofWords {words : List String} (hwords : ∀ word ∈ words, c ∉ word.toList)
    {tokens : List (Token Switch)} (htokens : ofWords names words = .ok tokens) :
    ∀ token ∈ tokens, token.Lacks c := by
  induction words generalizing tokens with
  | nil =>
    cases htokens
    exact nofun
  | cons word words ih =>
    obtain ⟨hword, hrest⟩ := List.forall_mem_cons.1 hwords
    by_cases hseparator : word = "--"
    · subst hseparator
      cases htokens
      refine List.forall_mem_cons.2 ⟨trivial, fun token htoken => ?_⟩
      obtain ⟨operand, hoperand, rfl⟩ := List.mem_map.1 htoken
      exact hrest operand hoperand
    · rw [ofWords_cons hseparator] at htokens
      cases htoken : ofWord names word with
      | error failure =>
        rw [htoken] at htokens
        cases htokens
      | ok token =>
        cases hothers : ofWords names words with
        | error failure =>
          rw [htoken, hothers] at htokens
          cases htokens
        | ok others =>
          rw [htoken, hothers] at htokens
          cases htokens
          exact List.forall_mem_cons.2 ⟨lacks_of_ofWord hword htoken, ih hrest hothers⟩

end Token

theorem Refusal.exists_of_bind_eq_ok {α β : Type} {first : Except Refusal α}
    {next : α → Except Refusal β} {value : β} (hread : first >>= next = .ok value) :
    ∃ word, first = .ok word ∧ next word = .ok value := by
  cases first with
  | error refusal => cases hread
  | ok word => exact ⟨word, rfl, hread⟩

def Given.Lacks (c : Char) : Given → Prop
  | .text word => c ∉ word.toList
  | .emptied => True

theorem Given.lacks_ofWord {word : String} (hword : c ∉ word.toList) : (ofWord word).Lacks c := by
  rw [ofWord]
  split
  · trivial
  · exact hword

def Source.given : Source → Given
  | .text given | .hex given | .file given => given

namespace Values

/-- The character is not in what says what the message is. -/
def Lacks (c : Char) (values : Values) : Prop := ∀ source ∈ values.source, source.given.Lacks c

theorem lacks_start (c : Char) : start.Lacks c := by
  intro source hsource
  cases hsource

theorem lacks_withSource {values later : Values} (source : Source)
    (hsource : source.given.Lacks c) (htaken : withSource values source = .ok later) :
    later.Lacks c := by
  have hlater : later.source = some source := by
    unfold withSource at htaken
    split at htaken <;> cases htaken <;> rfl
  rintro taken htaken
  rw [hlater] at htaken
  cases htaken
  exact hsource

theorem lacks_withValue {values later : Values} {switch : Switch} {given : Given}
    (hvalues : values.Lacks c) (hgiven : given.Lacks c)
    (htaken : withValue values switch given = .ok later) : later.Lacks c := by
  cases switch with
  | text => exact lacks_withSource (.text given) hgiven htaken
  | hex => exact lacks_withSource (.hex given) hgiven htaken
  | file => exact lacks_withSource (.file given) hgiven htaken
  | sig | exponent | modulus =>
    cases htaken
    exact hvalues
  | help | verbose => cases htaken
  | algorithm =>
    have hlater : later.source = values.source := by
      simp only [withValue] at htaken
      split at htaken
      · cases htaken
        rfl
      · split at htaken <;> cases htaken
        rfl
    rw [Lacks, hlater]
    exact hvalues

theorem lacks_ofTokens {values later : Values} {tokens : List (Token Switch)}
    (hvalues : values.Lacks c) (htokens : ∀ token ∈ tokens, token.Lacks c)
    (hread : ofTokens values tokens = .ok later) : later.Lacks c := by
  fun_induction ofTokens values tokens with
  | case1 =>
    cases hread
    exact hvalues
  | case2 values switch value rest ih =>
    obtain ⟨hvalue, hrest⟩ := List.forall_mem_cons.1 htokens
    obtain ⟨next, hnext, hread⟩ := Refusal.exists_of_bind_eq_ok hread
    exact ih next (lacks_withValue hvalues (Given.lacks_ofWord hvalue) hnext) hrest hread
  | case3 => cases hread
  | case4 values first letters =>
    obtain ⟨_, -, hread⟩ := Refusal.exists_of_bind_eq_ok hread
    cases hread
  | case5 values switch value rest _ ih =>
    obtain ⟨-, hoperand⟩ := List.forall_mem_cons.1 htokens
    obtain ⟨hvalue, hrest⟩ := List.forall_mem_cons.1 hoperand
    have hgiven : (Given.text value).Lacks c := hvalue
    obtain ⟨next, hnext, hread⟩ := Refusal.exists_of_bind_eq_ok hread
    exact ih next (lacks_withValue hvalues hgiven hnext) hrest hread
  | case6 => cases hread
  | case7 | case8 | case9 =>
    obtain ⟨_, -, hread⟩ := Refusal.exists_of_bind_eq_ok hread
    cases hread

end Values

namespace Command

def source? : Command → Option Source
  | digest _ source | verifyRsa source _ _ _ => some source
  | decode _ _ => none

theorem lacks_of_tokens {names : List (String × Switch)} {words : List String}
    (hwords : ∀ word ∈ words, c ∉ word.toList) {found : List (Token Switch)}
    (hfound : tokens names words = .ok found) : ∀ token ∈ found, token.Lacks c := by
  rw [tokens] at hfound
  split at hfound
  · next others htokens =>
    cases hfound
    exact Token.lacks_of_ofWords hwords htokens
  · cases hfound

theorem lacks_of_ofName {name : String} {words : List String}
    (hwords : ∀ word ∈ words, c ∉ word.toList) {command : Command}
    (hread : ofName name words = .ok command) :
    ∀ source ∈ command.source?, source.given.Lacks c := by
  have hvalues {names : List (String × Switch)} {found : List (Token Switch)} {values : Values}
      (hfound : tokens names words = .ok found) (htaken : Values.ofTokens .start found = .ok values) :
      values.Lacks c :=
    Values.lacks_ofTokens (Values.lacks_start c) (lacks_of_tokens hwords hfound) htaken
  unfold ofName at hread
  split at hread
  · obtain ⟨found, hfound, hread⟩ := Refusal.exists_of_bind_eq_ok hread
    obtain ⟨values, htaken, hread⟩ := Refusal.exists_of_bind_eq_ok hread
    split at hread
    · next source hsource =>
      cases hread
      rintro _ ⟨⟩
      exact hvalues hfound htaken source hsource
    · cases hread
  · obtain ⟨word, -, hread⟩ := Refusal.exists_of_bind_eq_ok hread
    cases hread
    exact nofun
  · obtain ⟨word, -, hread⟩ := Refusal.exists_of_bind_eq_ok hread
    cases hread
    exact nofun
  · obtain ⟨found, hfound, hread⟩ := Refusal.exists_of_bind_eq_ok hread
    obtain ⟨values, htaken, hread⟩ := Refusal.exists_of_bind_eq_ok hread
    split at hread
    · next source _ _ _ hsource _ _ _ =>
      cases hread
      rintro _ ⟨⟩
      exact hvalues hfound htaken source hsource
    · cases hread
  · cases hread

theorem lacks_of_afterOptions {words : List String} (hwords : ∀ word ∈ words, c ∉ word.toList)
    {command : Command} (hread : afterOptions words = .ok command) :
    ∀ source ∈ command.source?, source.given.Lacks c := by
  fun_induction afterOptions words with
  | case1 => cases hread
  | case2 => cases hread
  | case3 word rest => exact lacks_of_ofName (List.forall_mem_cons.1 hwords).2 hread
  | case4 word rest _ _ ih => exact ih (List.forall_mem_cons.1 hwords).2 hread
  | case5 => cases hread
  | case6 word rest _ _ _ _ ih =>
    obtain ⟨_, -, hread⟩ := Refusal.exists_of_bind_eq_ok hread
    exact ih (List.forall_mem_cons.1 hwords).2 hread
  | case7 =>
    obtain ⟨_, -, hread⟩ := Refusal.exists_of_bind_eq_ok hread
    cases hread
  | case8 => cases hread

/-- A character that no word of a command line holds is not in what says what the message is. -/
theorem lacks_of_ofWords {words : List String} (hwords : ∀ word ∈ words, c ∉ word.toList)
    {command : Command} (hread : ofWords words = .ok command) :
    ∀ source ∈ command.source?, source.given.Lacks c := by
  obtain ⟨_, -, hread⟩ := Refusal.exists_of_bind_eq_ok hread
  exact lacks_of_afterOptions hwords hread

end Command

end CryptoIntrinsics.CommandLine
