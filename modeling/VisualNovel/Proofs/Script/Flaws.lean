import VisualNovel.Proofs.Script.Pieces

/-!
Where a flaw lies. The text from the flaw on is an end of the text that is read, and the piece to
blame is what that end begins with.
-/

namespace VisualNovel.Script

open Text

/-- The piece to blame stands where the flaw is. An empty stage direction is blamed on its two
    parentheses, and the first of them stands there. -/
def Flaw.Pointed (flaw : Flaw) : Prop :=
  flaw.token <+: flaw.rest ∨
    flaw.mistake = .emptyDirection ∧ flaw.token = ['(', ')'] ∧ flaw.rest.head? = some '('

/-- The flaw lies in this text. -/
structure Flaw.Within (flaw : Flaw) (text : List Char) : Prop where
  suffix : flaw.rest <:+ text
  pointed : flaw.Pointed

/-- If something is not read, it is for a flaw in this text. -/
def Finds {α : Type} (text : List Char) (r : Except Flaw α) : Prop :=
  ∀ flaw, r = .error flaw → flaw.Within text

variable {α β : Type} {text text' : List Char} {m : Mistake}

theorem finds_ok (a : α) : Finds text (.ok a : Except Flaw α) := by
  intro flaw h
  cases h

theorem finds_error {rest token : List Char} (hrest : rest <:+ text) (htoken : token <+: rest) :
    Finds text (.error ⟨m, rest, token⟩ : Except Flaw α) := by
  intro flaw h
  cases h
  exact ⟨hrest, .inl htoken⟩

theorem Finds.mono {r : Except Flaw α} (h : Finds text r) (hsuffix : text <:+ text') :
    Finds text' r :=
  fun flaw hflaw => ⟨(h flaw hflaw).suffix.trans hsuffix, (h flaw hflaw).pointed⟩

theorem Finds.map {r : Except Flaw α} (h : Finds text r) (f : α → β) : Finds text (r.map f) := by
  intro flaw hflaw
  cases r with
  | error flaw' =>
    cases hflaw
    exact h _ rfl
  | ok a => cases hflaw

theorem Finds.bind {r : Except Flaw α} (h : Finds text r) {f : α → Except Flaw β}
    (hf : ∀ a, r = .ok a → Finds text (f a)) : Finds text (r >>= f) := by
  cases r with
  | error flaw' =>
    intro flaw hflaw
    cases hflaw
    exact h _ rfl
  | ok a => exact hf a rfl

/-! ### Quoted expressions -/

/-- Scanning blames a piece of what it scans, or the quoted text as a whole. -/
theorem scan_finds {quoted : List Char} (hsuffix : text <:+ quoted) :
    Finds quoted (scan (some quoted) text) := by
  fun_induction scan (some quoted) text with
  | case1 h => cases h
  | case2 _ h =>
    cases h
    exact finds_error (List.suffix_refl _) (List.prefix_refl _)
  | case3 c rest => exact finds_ok _
  | case4 c => exact finds_error hsuffix (List.prefix_refl _)
  | case5 c _ _ e after => exact finds_error hsuffix ⟨after, rfl⟩
  | case6 c _ _ e after _ _ ih =>
    have hafter : after <:+ c :: e :: after := ⟨[c, e], rfl⟩
    exact (ih (hafter.trans hsuffix)).map _
  | case7 c rest => exact finds_error hsuffix (List.prefix_refl _)
  | case8 c rest _ _ _ inside after hbreak _ ih =>
    obtain ⟨-, rfl⟩ := breakAt?_eq_some_iff.1 hbreak
    have hafter : after <:+ c :: (inside ++ '}' :: after) := ⟨c :: (inside ++ ['}']), by simp⟩
    exact (ih (hafter.trans hsuffix)).map _
  | case9 c rest _ _ _ inside after hbreak =>
    obtain ⟨-, rfl⟩ := breakAt?_eq_some_iff.1 hbreak
    exact finds_error hsuffix ⟨after, by simp⟩
  | case10 c rest => exact finds_error hsuffix ⟨rest, rfl⟩
  | case11 c rest _ _ _ _ ih => exact (ih ((List.suffix_cons c rest).trans hsuffix)).map _

theorem readQuoted_finds (text : List Char) : Finds text (readQuoted text) := by
  unfold readQuoted
  split
  · exact (scan_finds (List.suffix_cons _ _)).map _
  · exact finds_error (List.suffix_refl _) (List.take_prefix 1 _)

theorem readQuoted_suffix {tail : List Char} {e : Expression}
    (h : readQuoted text = .ok (e, tail)) : tail <:+ text := by
  obtain ⟨front, rfl, -⟩ := readQuoted_piece h
  exact ⟨'"' :: (front ++ ['"']), by simp⟩

/-! ### Tokens -/

/-- A token and its characters stand in the text. -/
structure Token.Within (t : Token) (text : List Char) : Prop where
  suffix : t.rest <:+ text
  raw : t.raw <+: t.rest

theorem Token.Within.mono {t : Token} (h : t.Within text) (hsuffix : text <:+ text') :
    t.Within text' :=
  ⟨h.suffix.trans hsuffix, h.raw⟩

theorem Token.Within.flaw {t : Token} (h : t.Within text) (m : Mistake) :
    (t.flaw m).Within text :=
  ⟨h.suffix, .inl h.raw⟩

theorem tokens_suffix {tail : List Char} {ts : List Token} (h : tokens text = .ok (ts, tail)) :
    tail <:+ text := by
  obtain ⟨front, rfl, -⟩ := tokens_piece h
  exact ⟨front ++ [')'], by simp⟩

theorem trimStart_suffix (text : List Char) : trimStart text <:+ text :=
  List.dropWhile_suffix isBlank

theorem suffix_of_trimStart {rest : List Char} (h : trimStart text = rest) : rest <:+ text :=
  h ▸ trimStart_suffix text

theorem tokens_within {tail : List Char} {ts : List Token} (h : tokens text = .ok (ts, tail)) :
    ∀ t ∈ ts, t.Within text := by
  fun_induction tokens text generalizing ts with
  | case1 | case3 | case7 => cases h
  | case2 =>
    cases h
    simp
  | case4 text c rest htrim _ _ e after hread raw =>
    rename_i ih
    obtain ⟨ts, hts, rfl⟩ := eq_cons_of_map_consToken h
    have hrest := suffix_of_trimStart htrim
    have hafter := (readQuoted_suffix hread).trans hrest
    refine List.forall_mem_cons.2 ⟨⟨hrest, List.take_prefix _ _⟩, fun t ht => ?_⟩
    exact (ih hts t ht).mono hafter
  | case5 text c rest htrim _ _ x after hnumber raw =>
    rename_i ih
    obtain ⟨ts, hts, rfl⟩ := eq_cons_of_map_consToken h
    have hrest := suffix_of_trimStart htrim
    have hafter := (numberAt?_suffix hnumber).trans hrest
    refine List.forall_mem_cons.2 ⟨⟨hrest, List.take_prefix _ _⟩, fun t ht => ?_⟩
    exact (ih hts t ht).mono hafter
  | case6 text c rest htrim _ _ _ _ word =>
    rename_i ih
    obtain ⟨ts, hts, rfl⟩ := eq_cons_of_map_consToken h
    have hrest := suffix_of_trimStart htrim
    have hword : word <+: c :: rest :=
      List.prefix_cons_inj c |>.2 (List.takeWhile_prefix isNameChar)
    have hafter : rest.dropWhile isNameChar <:+ text :=
      ((List.dropWhile_suffix isNameChar).trans (List.suffix_cons c rest)).trans hrest
    exact List.forall_mem_cons.2 ⟨⟨hrest, hword⟩, fun t ht => (ih hts t ht).mono hafter⟩

theorem tokens_finds (text : List Char) : Finds text (tokens text) := by
  fun_induction tokens text with
  | case1 => exact finds_error List.nil_suffix List.nil_prefix
  | case2 => exact finds_ok _
  | case3 text c rest htrim _ _ flaw hread =>
    have hrest := suffix_of_trimStart htrim
    intro flaw' hflaw
    cases hflaw
    exact (readQuoted_finds (c :: rest)).mono hrest flaw hread
  | case4 text c rest htrim _ _ e after hread raw ih =>
    have hrest := suffix_of_trimStart htrim
    exact (ih.mono ((readQuoted_suffix hread).trans hrest)).map _
  | case5 text c rest htrim _ _ x after hnumber raw ih =>
    have hrest := suffix_of_trimStart htrim
    exact (ih.mono ((numberAt?_suffix hnumber).trans hrest)).map _
  | case6 text c rest htrim _ _ _ _ word ih =>
    have hrest := suffix_of_trimStart htrim
    have hafter : rest.dropWhile isNameChar <:+ c :: rest :=
      (List.dropWhile_suffix isNameChar).trans (List.suffix_cons c rest)
    exact (ih.mono (hafter.trans hrest)).map _
  | case7 text c rest htrim =>
    have hrest := suffix_of_trimStart htrim
    exact finds_error hrest ⟨rest, rfl⟩

/-! ### Phrases -/

/-- A reader of a phrase takes tokens off the front, and blames one of them or the end. -/
structure Reading.Blames {ts : List Token} (text : List Char) (r : Reading α ts) : Prop where
  suffix : ∀ {a rest}, r.Reads a rest → rest <:+ ts
  finds : (∀ t ∈ ts, t.Within text) → Finds text r

/-- A reader of one token blames that token, or the end if there is none. -/
theorem Reading.Blames.of_head {read : (ts : List Token) → Reading α ts}
    (hreads : ∀ {ts a rest}, (read ts).Reads a rest → rest = ts ∨ ∃ t, ts = t :: rest)
    (hnil : ∀ flaw, read [] = .error flaw → flaw.rest = [] ∧ flaw.token = [])
    (hcons : ∀ t rest flaw, read (t :: rest) = .error flaw → ∃ m, flaw = t.flaw m)
    (ts : List Token) : (read ts).Blames text := by
  refine ⟨fun h => ?_, fun hts flaw hflaw => ?_⟩
  · obtain rfl | ⟨t, rfl⟩ := hreads h
    · exact List.suffix_refl _
    · exact List.suffix_cons _ _
  · cases ts with
    | nil =>
      obtain ⟨hrest, htoken⟩ := hnil flaw hflaw
      exact ⟨hrest ▸ List.nil_suffix, .inl (htoken ▸ List.nil_prefix)⟩
    | cons t rest =>
      obtain ⟨m, rfl⟩ := hcons t rest flaw hflaw
      exact (hts t List.mem_cons_self).flaw m

namespace Reading

variable {ts : List Token}

theorem done_blames (a : α) : (done a ts).Blames text where
  suffix h := by
    obtain ⟨-, rfl⟩ := done_reads.1 h
    exact List.suffix_refl _
  finds _ := finds_ok _

theorem Blames.mapValue {r : Reading α ts} (h : r.Blames text) (f : α → β) :
    (r.mapValue f).Blames text where
  suffix hreads := by
    obtain ⟨a, ha, -⟩ := mapValue_reads.1 hreads
    exact h.suffix ha
  finds hts := (h.finds hts).map _

theorem Blames.andThen {first : Reading α ts} (h : first.Blames text)
    {second : α → (rest : List Token) → Reading β rest}
    (hsecond : ∀ a rest, (second a rest).Blames text) : (first.andThen second).Blames text where
  suffix hreads := by
    obtain ⟨a, between, hfirst, hreads⟩ := andThen_reads.1 hreads
    exact ((hsecond a between).suffix hreads).trans (h.suffix hfirst)
  finds hts := by
    intro flaw hflaw
    unfold Reading.andThen at hflaw
    split at hflaw
    · cases hflaw
      exact h.finds hts _ rfl
    next a rest hlength =>
    have hsuffix : rest <:+ ts := h.suffix ⟨hlength, rfl⟩
    split at hflaw
    · next hread =>
      cases hflaw
      exact (hsecond a rest).finds (fun t ht => hts t (hsuffix.subset ht)) _ hread
    · cases hflaw

theorem one_blames (m : Mistake) (accept : TokenValue → Option α) :
    (one m accept ts).Blames text := by
  refine .of_head (fun h => ?_) (fun flaw hflaw => ?_) (fun t rest flaw hflaw => ?_) ts
  · obtain ⟨t, rfl, -⟩ := one_reads.1 h
    exact .inr ⟨t, rfl⟩
  · cases hflaw
    exact ⟨rfl, rfl⟩
  · unfold one at hflaw
    dsimp only at hflaw
    split at hflaw
    · cases hflaw
    · cases hflaw
      exact ⟨m, rfl⟩

end Reading

open Reading

variable {ts : List Token}

theorem keyword_blames (ws : List String) : (keyword ws ts).Blames text := one_blames _ _

theorem identifier_blames (what : String) : (identifier what ts).Blames text := one_blames _ _

theorem number_blames (what : String) : (number what ts).Blames text := one_blames _ _

theorem member_blames (α : Type) [Vocabulary α] : (member α ts).Blames text := one_blames _ _

theorem optionalMember_blames (α : Type) [Vocabulary α] : (optionalMember α ts).Blames text := by
  refine .of_head (fun h => ?_) (fun flaw hflaw => ?_) (fun t rest flaw hflaw => ?_) ts
  · obtain ⟨t, rfl, -⟩ | ⟨-, -, rfl⟩ := optionalMember_reads.1 h
    · exact .inr ⟨t, rfl⟩
    · exact .inl rfl
  · cases hflaw
  · unfold optionalMember at hflaw
    dsimp only at hflaw
    split at hflaw <;> cases hflaw

theorem nameOrText_blames (what : String) : (nameOrText what ts).Blames text := by
  refine .of_head (fun h => ?_) (fun flaw hflaw => ?_) (fun t rest flaw hflaw => ?_) ts
  · obtain ⟨t, rfl, -⟩ := nameOrText_reads.1 h
    exact .inr ⟨t, rfl⟩
  · cases hflaw
    exact ⟨rfl, rfl⟩
  · unfold nameOrText at hflaw
    dsimp only at hflaw
    split at hflaw
    · cases hflaw
    · split at hflaw
      · cases hflaw
      · cases hflaw
        exact ⟨_, rfl⟩
    · cases hflaw
      exact ⟨_, rfl⟩

theorem verb_blames (subject : String) (verbs : List String) :
    (verb subject verbs ts).Blames text := by
  refine .of_head (fun h => ?_) (fun flaw hflaw => ?_) (fun t rest flaw hflaw => ?_) ts
  · obtain ⟨t, rfl, -⟩ := verb_reads.1 h
    exact .inr ⟨t, rfl⟩
  · cases hflaw
    exact ⟨rfl, rfl⟩
  · unfold verb at hflaw
    dsimp only at hflaw
    split at hflaw
    · cases hflaw
    · cases hflaw
      exact ⟨_, rfl⟩

theorem scaleFactor_blames : (scaleFactor ts).Blames text := by
  refine .of_head (fun h => ?_) (fun flaw hflaw => ?_) (fun t rest flaw hflaw => ?_) ts
  · obtain ⟨t, rfl, -⟩ := scaleFactor_reads.1 h
    exact .inr ⟨t, rfl⟩
  · cases hflaw
    exact ⟨rfl, rfl⟩
  · unfold scaleFactor at hflaw
    dsimp only at hflaw
    split at hflaw
    · cases hflaw
      exact ⟨_, rfl⟩
    · split at hflaw
      · cases hflaw
        exact ⟨_, rfl⟩
      · cases hflaw

theorem layerIndex_blames : (layerIndex ts).Blames text := by
  refine .of_head (fun h => ?_) (fun flaw hflaw => ?_) (fun t rest flaw hflaw => ?_) ts
  · obtain ⟨t, rfl, -⟩ := layerIndex_reads.1 h
    exact .inr ⟨t, rfl⟩
  · cases hflaw
    exact ⟨rfl, rfl⟩
  · unfold layerIndex at hflaw
    dsimp only at hflaw
    split at hflaw
    · cases hflaw
      exact ⟨_, rfl⟩
    · split at hflaw
      · split at hflaw
        · cases hflaw
        · cases hflaw
          exact ⟨_, rfl⟩
      · cases hflaw
        exact ⟨_, rfl⟩

theorem place_blames : (place ts).Blames text := by
  refine (keyword_blames _).andThen fun first rest => ?_
  split
  · exact (keyword_blames _).mapValue _
  · split
    · exact (keyword_blames _).mapValue _
    · exact done_blames _

theorem coordinates_blames : (coordinates ts).Blames text :=
  (number_blames _).andThen fun _ _ => (number_blames _).mapValue _

/-- What follows the first word of each option blames a token of it, or the end. -/
def OptionTable.Blames (table : OptionTable) (text : List Char) : Prop :=
  ∀ {w : String} {read : (ts : List Token) → Reading Setter ts}, table w = some read →
    ∀ ts, (read ts).Blames text

theorem actorOptions_blames : actorOptions.Blames text := by
  intro w read h ts
  unfold actorOptions at h
  split at h
  · cases h
    exact place_blames.mapValue _
  · cases h
    exact (member_blames _).mapValue _
  · cases h
    exact (identifier_blames _).mapValue _
  · cases h

theorem animationOptions_blames : animationOptions.Blames text := by
  intro w read h ts
  unfold animationOptions at h
  split at h
  · cases h
    exact coordinates_blames.mapValue _
  · cases h
    exact scaleFactor_blames.mapValue _
  · cases h
    exact layerIndex_blames.mapValue _
  · cases h

/-- A flaw at one of the tokens lies in the text that they are of. -/
theorem finds_flaw {t : Token} (ht : t.Within text) (m : Mistake) :
    Finds text (.error (t.flaw m) : Except Flaw α) := by
  intro flaw h
  cases h
  exact ht.flaw m

theorem options_finds {table : OptionTable} (htable : table.Blames text) {used : List String}
    {params : Params} (hts : ∀ t ∈ ts, t.Within text) :
    Finds text (options table used params ts) := by
  fun_induction options table used params ts with
  | case1 => exact finds_ok _
  | case2 => exact finds_flaw (hts _ List.mem_cons_self) _
  | case3 => exact finds_flaw (hts _ List.mem_cons_self) _
  | case4 used params t rest w read hoption hused flaw hflaw =>
    obtain ⟨w', -, htake⟩ := Option.bind_eq_some_iff.1 hoption
    obtain ⟨read', hread, heq⟩ := Option.map_eq_some_iff.1 htake
    cases heq
    intro flaw' h
    cases h
    exact (htable hread rest).finds (fun t ht => hts t (List.mem_cons_of_mem _ ht)) flaw hflaw
  | case5 used params t rest w read hoption hused set after hafter hset ih =>
    obtain ⟨w', -, htake⟩ := Option.bind_eq_some_iff.1 hoption
    obtain ⟨read', hread, heq⟩ := Option.map_eq_some_iff.1 htake
    cases heq
    have hsuffix : after <:+ rest := (htable hread rest).suffix ⟨hafter, hset⟩
    exact ih fun t ht => hts t (List.mem_cons_of_mem _ (hsuffix.subset ht))

theorem atEnd_finds {r : Reading α ts} (h : r.Blames text) (hts : ∀ t ∈ ts, t.Within text) :
    Finds text (atEnd r) := by
  unfold atEnd
  split
  · next flaw =>
    intro flaw' hflaw
    cases hflaw
    exact h.finds hts _ rfl
  · exact finds_ok _
  · next a t rest hlength =>
    have hsuffix : t :: rest <:+ ts := h.suffix ⟨hlength, rfl⟩
    exact finds_flaw (hts t (hsuffix.subset List.mem_cons_self)) _

theorem finishWith_finds {r : Reading α ts} (h : r.Blames text) (hts : ∀ t ∈ ts, t.Within text)
    {finish : α → List Token → Except Flaw StageDirection}
    (hfinish : ∀ a rest, (∀ t ∈ rest, t.Within text) → Finds text (finish a rest)) :
    Finds text (finishWith r finish) := by
  unfold finishWith
  split
  · next flaw =>
    intro flaw' hflaw
    cases hflaw
    exact h.finds hts _ rfl
  · next a rest hlength =>
    have hsuffix : rest <:+ ts := h.suffix ⟨hlength, rfl⟩
    exact hfinish a rest fun t ht => hts t (hsuffix.subset ht)

section Phrase

variable (hts : ∀ t ∈ ts, t.Within text)
include hts

theorem scenePhrase_finds : Finds text (scenePhrase ts) := by
  refine atEnd_finds ?_ hts
  exact (nameOrText_blames _).andThen fun _ _ => (keyword_blames _).mapValue _

theorem backgroundPhrase_finds : Finds text (backgroundPhrase ts) := by
  refine atEnd_finds ?_ hts
  exact (keyword_blames _).andThen fun _ _ => (keyword_blames _).andThen fun _ _ =>
    (nameOrText_blames _).mapValue _

theorem panelPhrase_finds : Finds text (panelPhrase ts) := by
  refine atEnd_finds ?_ hts
  exact (member_blames _).andThen fun _ _ => (keyword_blames _).andThen fun _ _ =>
    (keyword_blames _).andThen fun _ _ => (nameOrText_blames _).andThen fun _ _ =>
    (optionalMember_blames _).mapValue _

theorem actorPhrase_finds (name : String) : Finds text (actorPhrase name ts) := by
  refine finishWith_finds (verb_blames _ _) hts fun w rest hrest => ?_
  split
  · exact (options_finds actorOptions_blames hrest).map _
  split
  · exact atEnd_finds (done_blames _) hrest
  split
  · refine finishWith_finds (member_blames _) hrest fun fade rest' hrest' => ?_
    cases fade with
    | fadeIn => exact (options_finds actorOptions_blames hrest').map _
    | fadeOut => exact atEnd_finds (done_blames _) hrest'
  split
  · exact atEnd_finds ((keyword_blames _).andThen fun _ _ => place_blames.mapValue _) hrest
  · exact atEnd_finds ((member_blames _).mapValue _) hrest

theorem animationPhrase_finds : Finds text (animationPhrase ts) := by
  refine finishWith_finds (identifier_blames _) hts fun name behind hbehind => ?_
  refine finishWith_finds (verb_blames _ _) hbehind fun w rest hrest => ?_
  split
  · exact (options_finds animationOptions_blames hrest).map _
  split
  · exact atEnd_finds ((member_blames _).mapValue _) hrest
  split
  · exact atEnd_finds ((keyword_blames _).andThen fun _ _ => coordinates_blames.mapValue _) hrest
  · exact atEnd_finds ((member_blames _).mapValue _) hrest

theorem phrase_finds : Finds text (phrase ts) := by
  unfold phrase
  split
  · exact finds_error List.nil_suffix List.nil_prefix
  · next head rest =>
    obtain ⟨hhead, hrest⟩ := List.forall_mem_cons.1 hts
    split
    · exact finds_flaw hhead _
    · exact scenePhrase_finds hrest
    · exact backgroundPhrase_finds hrest
    · exact panelPhrase_finds hrest
    · exact animationPhrase_finds hrest
    · exact actorPhrase_finds hrest _

end Phrase

/-! ### Directives -/

theorem trim_isPrefix {cs : List Char} (h : Ends isBlank cs) : trim cs <+: cs := by
  rw [trim, trimStart_of_ends h]
  exact trimEnd_prefix cs

/-- What is cut off blanks begins with none. -/
theorem ends_trimStart (cs : List Char) : Ends isBlank (trimStart cs) := ends_dropWhile isBlank cs

/-- The first word of a text that begins with no blank is what it begins with. -/
theorem head_words_isPrefix {cs : List Char} (h : Ends isBlank cs) :
    (words cs).headD [] <+: cs := by
  induction cs with
  | nil => exact List.nil_prefix
  | cons c rest ih =>
    cases rest with
    | nil => simp [words, ends_cons.1 h]
    | cons d more =>
      rw [words, if_neg (by simp [ends_cons.1 h])]
      split
      · exact ⟨d :: more, rfl⟩
      · next hd =>
        have hprefix := ih (ends_cons.2 (by simpa using hd))
        split
        · exact ⟨d :: more, rfl⟩
        · next w ws hwords =>
          rw [hwords] at hprefix
          exact (List.prefix_cons_inj c).2 hprefix

theorem expectEnd_finds (text : List Char) : Finds text (expectEnd text) := by
  unfold expectEnd
  split
  · exact finds_ok _
  · exact finds_error (trimStart_suffix text) (trim_isPrefix (ends_trimStart text))

theorem spoken_finds (name : List Char) (emotion : Option String) (text : List Char) :
    Finds text (spokenBy name emotion text) := by
  refine (readQuoted_finds text).bind fun read hread => ?_
  obtain ⟨e, rest⟩ := read
  exact ((expectEnd_finds rest).mono (readQuoted_suffix hread)).bind fun _ _ => finds_ok _

theorem dialogue_finds (htext : Ends isBlank text) : Finds text (dialogue text) := by
  have hfirst := head_words_isPrefix htext
  have hbehind : text.dropWhile isNameChar <:+ text := List.dropWhile_suffix isNameChar
  unfold dialogue
  dsimp only
  split
  · exact (finds_error (List.suffix_refl _) hfirst).bind fun _ h => nomatch h
  split
  · next afterColon hcolon =>
    have hafter : afterColon <:+ trimStart (text.dropWhile isNameChar) :=
      hcolon ▸ List.suffix_cons _ _
    have hspoken : trimStart afterColon <:+ text := (trimStart_suffix afterColon).trans
      (hafter.trans ((trimStart_suffix _).trans hbehind))
    split
    · next rest hopen =>
      rw [hopen] at hspoken
      split
      · exact (finds_error hspoken (List.prefix_refl _)).bind fun _ h => nomatch h
      next inside after hbreak =>
      obtain ⟨-, rfl⟩ := breakAt?_eq_some_iff.1 hbreak
      split
      · have hbehind : after <:+ '(' :: (inside ++ ')' :: after) :=
          ⟨'(' :: (inside ++ [')']), by simp⟩
        have hsaid := (trimStart_suffix after).trans (hbehind.trans hspoken)
        exact (spoken_finds _ _ (trimStart after)).mono hsaid
      · exact (finds_error hspoken ⟨after, by simp⟩).bind fun _ h => nomatch h
    · exact (spoken_finds _ _ (trimStart afterColon)).mono hspoken
  · exact finds_error (List.suffix_refl _) hfirst

theorem logEntry_finds (htext : Ends isBlank text) : Finds text (logEntry text) := by
  unfold logEntry
  split
  · exact finds_error (List.suffix_refl _) (trim_isPrefix htext)
  next quoted hword =>
  obtain ⟨lead, rfl, -⟩ := afterLogWord?_lead hword
  have hquoted : quoted <:+ lead ++ quoted := List.suffix_append lead quoted
  refine ((readQuoted_finds quoted).mono hquoted).bind fun read hread => ?_
  obtain ⟨e, rest⟩ := read
  have hrest : trimStart rest <:+ lead ++ quoted :=
    (trimStart_suffix rest).trans ((readQuoted_suffix hread).trans hquoted)
  dsimp only
  split
  · next after hclose =>
    have hafter : after <:+ trimStart rest := hclose ▸ List.suffix_cons _ _
    exact ((expectEnd_finds after).mono (hafter.trans hrest)).bind fun _ _ => finds_ok _
  · exact finds_error hrest (trim_isPrefix (ends_trimStart rest))

/-- An empty stage direction is blamed on its parentheses. -/
theorem emptyDirection_finds (htext : text.head? = some '(') :
    Finds text (.error ⟨.emptyDirection, text, ['(', ')']⟩ : Except Flaw α) := by
  intro flaw h
  cases h
  exact ⟨List.suffix_refl _, .inr ⟨rfl, rfl, htext⟩⟩

theorem stageDirection_finds (htext : text.head? = some '(') :
    Finds text (stageDirection text) := by
  have htail : text.tail <:+ text := List.tail_suffix text
  refine ((tokens_finds text.tail).mono htail).bind fun read htokens => ?_
  obtain ⟨ts, after⟩ := read
  have hafter := (tokens_suffix htokens).trans htail
  refine ((expectEnd_finds after).mono hafter).bind fun _ _ => ?_
  have hts : ∀ t ∈ ts, t.Within text := fun t ht => (tokens_within htokens t ht).mono htail
  dsimp only
  split
  · exact (emptyDirection_finds htext).bind fun _ _ => (phrase_finds hts).bind fun _ _ => finds_ok _
  · exact (phrase_finds hts).bind fun _ _ => finds_ok _

/-- If a line is no directive, it is for a flaw in it. -/
theorem directive_finds (htext : Ends isBlank text) : Finds text (directive text) := by
  unfold directive
  split
  · exact stageDirection_finds rfl
  · exact logEntry_finds htext
  · exact dialogue_finds htext

end VisualNovel.Script
