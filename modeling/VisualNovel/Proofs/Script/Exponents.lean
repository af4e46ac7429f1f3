import VisualNovel.Proofs.Script.Plain

/-!
Numbers that are not plain. Their texts are more than one token: an exponent is read as a word
behind a number, and so is the name of a number that is not finite. No phrase has a word there.
-/

namespace VisualNovel.Script

open Number Text Reading

/-- How the tokens of a number begin that is not plain: with a word, or with a number and the word
    for its exponent. -/
def Spoiled (ts : List Token) : Prop :=
  (∃ t more w, ts = t :: more ∧ t.value = .word w) ∨
    ∃ t t' more x, ts = t :: t' :: more ∧ t.value = .number x ∧ t'.value = .word "e"

theorem withSign_append (negative : Bool) (front back : List Char) :
    withSign negative (front ++ back) = withSign negative front ++ back := by
  cases negative <;> rfl

/-- The digits in front of an exponent are a number. -/
theorem exists_numberAt?_mantissa {ds rest : List Char} (hds : ∀ c ∈ ds, isDigit c)
    (hrest : NumberEnds rest) (negative : Bool) :
    ∃ x, numberAt? (withSign negative (mantissa ds) ++ rest) = some (x, rest) := by
  unfold mantissa
  split
  · exact ⟨_, numberAt?_whole (by simp) (List.all_eq_true.1 (by decide)) hrest negative⟩
  · exact ⟨_, numberAt?_whole (by simp) hds hrest negative⟩
  · next c more hmore =>
    exact ⟨_, numberAt?_point (List.cons_ne_nil c []) hmore hds hrest negative⟩

/-- A number that is not plain is written as a name or with an exponent. -/
theorem written_of_not_isPlain {x : Float} (h : ¬ IsPlain x) :
    shortestOrWhole x ∈ ["nan", "inf", "-inf"] ∨
      ∃ front e, (shortestOrWhole x).toList = front ++ exponentText e ∧
        ∀ rest, NumberEnds rest → ∃ y, numberAt? (front ++ rest) = some (y, rest) := by
  cases hparts : parts x with
  | nan => simp [shortestOrWhole, shortest, hparts]
  | infinite negative => cases negative <;> simp [shortestOrWhole, shortest, hparts]
  | finite negative units =>
    have hfraction : units % unitsPerOne ≠ 0 := fun hwhole =>
      h ⟨negative, units, hparts, .inl hwhole⟩
    obtain ⟨bits, hpos, hfinite, -, hshortest, htext⟩ :=
      shortestOrWhole_of_fraction hparts hfraction
    have hspells := shortestDigits_spells hpos hfinite
    have hexponent : ¬ (-4 < (shortestDigits bits).point ∧ (shortestDigits bits).point ≤ 16) := by
      rintro ⟨hlow, hhigh⟩
      obtain ⟨whole, after, hwrite, hpositional⟩ := hspells.write_positional hlow hhigh
      obtain ⟨hwhole, hafter⟩ := List.forall_mem_append.1 hpositional.digits
      refine h ⟨negative, units, hparts, .inr ?_⟩
      have hnot : 'e' ∉ whole ++ '.' :: after := by
        simp [not_mem_digits hwhole (by decide : isDigit 'e' = false),
          not_mem_digits hafter (by decide : isDigit 'e' = false)]
      rw [htext, hwrite]
      cases negative
      · exact hnot
      · exact fun hmem => hnot ((List.mem_cons.1 hmem).resolve_left (by decide))
    refine .inr ⟨withSign negative (mantissa (shortestDigits bits).digits),
      (shortestDigits bits).point - 1, ?_, fun rest hrest =>
      exists_numberAt?_mantissa hspells.digits hrest negative⟩
    rw [hshortest, htext, write_exponent hexponent, withSign_append]

/-! ### Tokens -/

theorem eq_cons_of_map_consToken {t : Token} {r : Except Flaw (List Token × List Char)}
    {ts : List Token} {after : List Char} (h : r.map (consToken t) = .ok (ts, after)) :
    ∃ more, r = .ok (more, after) ∧ ts = t :: more := by
  obtain ⟨⟨more, after'⟩, hr, heq⟩ := map_eq_ok.1 h
  cases heq
  exact ⟨more, hr, rfl⟩

/-- A text that begins like no token is not read. -/
theorem tokens_minus {c : Char} (hc : isDigit c = false) (rest : List Char) :
    tokens (' ' :: '-' :: c :: rest) = .error ⟨.unexpectedCharacter, '-' :: c :: rest, ['-']⟩ := by
  have hnumber : numberAt? ('-' :: c :: rest) = none := by
    simp [numberAt?, sign, hc]
  have hstart : isNameStart '-' = false := by decide
  have htrim : trimStart (' ' :: '-' :: c :: rest) = '-' :: c :: rest := by
    rw [trimStart_blank (by decide)]
    exact trimStart_of_ends (ends_cons.2 (by decide))
  rw [tokens.eq_def]
  split
  · next h => simp [htrim] at h
  · next d tail h =>
    rw [htrim] at h
    cases h
    rw [show ('-' == ')') = false by decide, show ('-' == '"') = false by decide]
    simp only [Bool.false_eq_true, if_false]
    split
    · next h => simp [hnumber] at h
    · rw [if_neg (by simp [hstart])]

theorem exists_exponentText_eq (e : Int) :
    ∃ mark ds, exponentText e = 'e' :: mark :: ds ∧ isNameChar mark = false := by
  refine ⟨_, _, rfl, ?_⟩
  split <;> decide

/-- What a number is read as that is not plain. -/
theorem tokens_spoiled {x : Float} (hx : ¬ IsPlain x) {rest : List Char} (hrest : ChunkEnds rest)
    {ts : List Token} {after : List Char}
    (h : tokens (' ' :: ((shortestOrWhole x).toList ++ rest)) = .ok (ts, after)) : Spoiled ts := by
  have hword {w : String} (hw : IsName w)
      (h : tokens (' ' :: (w.toList ++ rest)) = .ok (ts, after)) : Spoiled ts := by
    obtain ⟨t, ht, htokens⟩ := tokens_word hw (hrest.ends (by decide) (by decide))
    rw [htokens] at h
    obtain ⟨more, -, rfl⟩ := eq_cons_of_map_consToken h
    exact .inl ⟨t, more, w, rfl, ht⟩
  obtain hname | ⟨front, e, htext, hfront⟩ := written_of_not_isPlain hx
  · simp only [List.mem_cons, List.not_mem_nil, or_false] at hname
    rcases hname with heq | heq | heq <;> rw [heq] at h
    · exact hword (show isName "nan".toList by decide) h
    · exact hword (show isName "inf".toList by decide) h
    · have herror := tokens_minus (by decide : isDigit 'i' = false) ('n' :: 'f' :: rest)
      exact absurd (h.symm.trans herror) (by simp)
  · obtain ⟨mark, ds, hexponent, hmark⟩ := exists_exponentText_eq e
    rw [htext, hexponent, List.append_assoc] at h
    have hends : NumberEnds ('e' :: mark :: (ds ++ rest)) := ends_cons.2 (by decide)
    obtain ⟨y, hy⟩ := hfront _ hends
    obtain ⟨t, ht, htokens⟩ := tokens_number_append hy
    obtain ⟨more, hmore, rfl⟩ := eq_cons_of_map_consToken (htokens.symm.trans h)
    have hspace : tokens (' ' :: ("e".toList ++ mark :: (ds ++ rest))) = .ok (more, after) := by
      rw [← hmore]
      exact tokens_congr (trimStart_blank (by decide))
    have he : IsName "e" := show isName "e".toList by decide
    obtain ⟨t', ht', htokens'⟩ := tokens_word he (ends_cons.2 hmark)
    obtain ⟨more', -, rfl⟩ := eq_cons_of_map_consToken (htokens'.symm.trans hspace)
    exact .inr ⟨t, t', more', y, rfl, ht, ht'⟩

/-- A row of chunks is read up to its first number that is not plain. -/
theorem tokens_row_spoiled {good more : List Chunk} (hgood : ∀ c ∈ good, c.Readable) {x : Float}
    (hx : ¬ IsPlain x) {after after' : List Char} {ts : List Token}
    (h : tokens (Chunk.row (good ++ .number x :: more) ++ ')' :: after) = .ok (ts, after')) :
    ∃ spoiled, Says good spoiled ts ∧ Spoiled spoiled := by
  induction good generalizing ts with
  | nil =>
    rw [List.nil_append, Chunk.row_cons, List.cons_append, List.append_assoc] at h
    exact ⟨ts, rfl, tokens_spoiled hx (chunkEnds_row more after) h⟩
  | cons c good ih =>
    obtain ⟨hc, hgood⟩ := List.forall_mem_cons.1 hgood
    rw [List.cons_append, Chunk.row_cons, List.cons_append, List.append_assoc] at h
    obtain ⟨t, ht, htokens⟩ := tokens_chunk hc (chunkEnds_row (good ++ .number x :: more) after)
    obtain ⟨ts', hts', rfl⟩ := eq_cons_of_map_consToken (htokens.symm.trans h)
    obtain ⟨spoiled, hsays, hspoiled⟩ := ih hgood hts'
    exact ⟨spoiled, ⟨t, ts', rfl, ht, hsays⟩, hspoiled⟩

/-! ### Phrases -/

variable {ts rest spoiled : List Token}

/-- Behind a number that is read where the tokens are spoiled stands the word for an exponent. -/
theorem Spoiled.exponent {t : Token} {x : Float} (h : Spoiled (t :: rest))
    (ht : t.value = .number x) : ∃ t' more, rest = t' :: more ∧ t'.value = .word "e" := by
  obtain ⟨t₀, more, w, heq, hw⟩ | ⟨t₀, t', more, y, heq, -, he⟩ := h
  · cases heq
    rw [ht] at hw
    cases hw
  · cases heq
    exact ⟨t', more, rfl, he⟩

/-- Coordinates are not read where one of them is spoiled. -/
theorem coordinates_spoiled {p : Placement} (h : (coordinates ts).Reads p rest)
    (hspoiled : Spoiled ts) : False := by
  obtain ⟨t, t', x, y, rfl, hx, hy, -⟩ := coordinates_reads.1 h
  obtain ⟨t₀, more, heq, he⟩ := hspoiled.exponent hx
  cases heq
  rw [hy] at he
  cases he

/-- The options that are read begin with one of the table. -/
theorem options_eq_ok_cons {table : OptionTable} {used : List String} {params out : Params}
    {t : Token} (h : options table used params (t :: ts) = .ok out) :
    ∃ w read set rest, t.value = .word w ∧ table w = some read ∧ Reads (read ts) set rest ∧
      options table (w :: used) (set params) rest = .ok out := by
  rw [options.eq_def] at h
  dsimp only at h
  split at h
  · cases h
  · next w read hoption =>
    split at h
    · cases h
    · split at h
      · cases h
      · next set after hafter hread =>
        obtain ⟨w', hw', htable⟩ := Option.bind_eq_some_iff.1 hoption
        obtain ⟨read', hread', heq⟩ := Option.map_eq_some_iff.1 htable
        cases heq
        exact ⟨w, read, set, after, TokenValue.word?_eq_some.1 hw', hread', ⟨hafter, hread⟩, h⟩

section Options

variable {used : List String} {params out : Params} {t u : Token}

theorem options_exponent (ht : t.value = .word "e") :
    options animationOptions used params (t :: ts) ≠ .ok out := by
  intro h
  obtain ⟨w, read, set, rest, hw, htable, -, -⟩ := options_eq_ok_cons h
  rw [ht] at hw
  cases hw
  cases htable

theorem options_spoiled_x (ht : t.value = .word "at") (h : Spoiled ts) :
    options animationOptions used params (t :: ts) ≠ .ok out := by
  intro hok
  obtain ⟨w, read, set, rest, hw, htable, hread, -⟩ := options_eq_ok_cons hok
  rw [ht] at hw
  cases hw
  cases htable
  obtain ⟨p, hp, -⟩ := mapValue_reads.1 hread
  exact coordinates_spoiled hp h

/-- Behind coordinates the options go on as they would alone. -/
theorem exists_options_behind_at {v : Token} (ht : t.value = .word "at")
    (h : options animationOptions used params (t :: u :: v :: ts) = .ok out) :
    ∃ used' params', options animationOptions used' params' ts = .ok out := by
  obtain ⟨w, read, set, rest, hw, htable, hread, hrest⟩ := options_eq_ok_cons h
  rw [ht] at hw
  cases hw
  cases htable
  obtain ⟨p, hp, -⟩ := mapValue_reads.1 hread
  obtain ⟨u', v', x, y, heq, -, -, -⟩ := coordinates_reads.1 hp
  cases heq
  exact ⟨_, _, hrest⟩

theorem options_spoiled_y (ht : t.value = .word "at") (h : Spoiled ts) :
    options animationOptions used params (t :: u :: ts) ≠ .ok out := by
  intro hok
  obtain ⟨w, read, set, rest, hw, htable, hread, hrest⟩ := options_eq_ok_cons hok
  rw [ht] at hw
  cases hw
  cases htable
  obtain ⟨p, hp, -⟩ := mapValue_reads.1 hread
  obtain ⟨u', v, x', y, heq, -, hy, -⟩ := coordinates_reads.1 hp
  cases heq
  obtain ⟨e, more, rfl, he⟩ := h.exponent hy
  exact options_exponent he hrest

theorem options_spoiled_scale (ht : t.value = .word "scale") (h : Spoiled ts) :
    options animationOptions used params (t :: ts) ≠ .ok out := by
  intro hok
  obtain ⟨w, read, set, rest, hw, htable, hread, hrest⟩ := options_eq_ok_cons hok
  rw [ht] at hw
  cases hw
  cases htable
  obtain ⟨x, hx, -⟩ := mapValue_reads.1 hread
  obtain ⟨u, rfl, hnumber, -⟩ := scaleFactor_reads.1 hx
  obtain ⟨e, more, rfl, he⟩ := h.exponent hnumber
  exact options_exponent he hrest

end Options

/-- Options of an animation are not read where a number of theirs is not plain. -/
theorem exists_spoiled_option {s : Showing} (hnot : ¬ ∀ x ∈ s.params.numbers, IsPlain x) :
    ∃ good x more, s.chunks = good ++ .number x :: more ∧ (∀ c ∈ good, c.Readable) ∧
      ¬ IsPlain x ∧ ∀ spoiled ts, Says good spoiled ts → Spoiled spoiled →
        ∀ out, options animationOptions [] {} ts ≠ .ok out := by
  have hat : (Chunk.word "at").Readable := Chunk.writable_of_mem_words (by decide)
  have hscale : (Chunk.word "scale").Readable := Chunk.writable_of_mem_words (by decide)
  obtain ⟨position, scale, layer⟩ := s
  simp only [Showing.params, Params.numbers, List.forall_mem_append, not_and_or] at hnot
  cases position with
  | none =>
    cases scale with
    | none => simp at hnot
    | some x =>
      have hx : ¬ IsPlain x := by simpa using hnot
      refine ⟨[.word "scale"], x, _, rfl, by simp [hscale], hx, ?_⟩
      rintro spoiled ts ⟨t, more, rfl, ht, rfl⟩ hspoiled out
      exact options_spoiled_scale ht hspoiled
  | some xy =>
    obtain ⟨x, y⟩ := xy
    by_cases hx : IsPlain x
    · have hxr : (Chunk.number x).Readable := hx
      by_cases hy : IsPlain y
      · have hyr : (Chunk.number y).Readable := hy
        cases scale with
        | none => simp [hx, hy] at hnot
        | some z =>
          have hz : ¬ IsPlain z := by simpa [hx, hy] using hnot
          refine ⟨[.word "at", .number x, .number y, .word "scale"], z, _, rfl,
            by simp [hat, hxr, hyr, hscale], hz, ?_⟩
          rintro spoiled ts hsays hspoiled out hok
          simp only [says_word, says_number, says_nil] at hsays
          obtain ⟨t, _, rfl, ht, u, _, rfl, -, v, _, rfl, -, t', _, rfl, ht', rfl⟩ := hsays
          obtain ⟨used, params, hrest⟩ := exists_options_behind_at ht hok
          exact options_spoiled_scale ht' hspoiled hrest
      · refine ⟨[.word "at", .number x], y, _, rfl, by simp [hat, hxr], hy, ?_⟩
        rintro spoiled ts ⟨t, _, rfl, ht, u, more, rfl, -, rfl⟩ hspoiled out
        exact options_spoiled_y ht hspoiled
    · refine ⟨[.word "at"], x, _, rfl, by simp [hat], hx, ?_⟩
      rintro spoiled ts ⟨t, more, rfl, ht, rfl⟩ hspoiled out
      exact options_spoiled_x ht hspoiled

/-- An animation does not move to coordinates that are not read. -/
theorem animationMoves_unread {name : String} (hunread : ∀ p, ¬ (coordinates rest).Reads p [])
    (h : Says [.word name, .word "moves", .word "to"] rest ts) (d : StageDirection) :
    animationPhrase ts ≠ .ok d := by
  intro hok
  simp only [says_word, says_nil] at h
  obtain ⟨t, _, rfl, ht, t', _, rfl, ht', t'', _, rfl, ht'', rfl⟩ := h
  simp only [animationPhrase, finishWith_eq_ok, identifier_reads, verb_reads] at hok
  obtain ⟨name', _, ⟨_, heq, -⟩, w, _, ⟨_, heq', hw, -⟩, hok⟩ := hok
  cases heq
  cases heq'
  rw [ht'] at hw
  cases hw
  simp only [String.reduceBEq, Bool.false_eq_true, if_false, BEq.rfl, if_true, atEnd_eq_ok,
    andThen_reads, mapValue_reads, keyword_reads] at hok
  obtain ⟨-, _, ⟨_, heq, -⟩, p, hp, -⟩ := hok
  cases heq
  exact hunread p hp

/-- An animation does not appear with options that are not read. -/
theorem animationAppears_unread {name : String}
    (hunread : ∀ out, options animationOptions [] {} rest ≠ .ok out)
    (h : Says [.word name, .word "appears"] rest ts) (d : StageDirection) :
    animationPhrase ts ≠ .ok d := by
  intro hok
  simp only [says_word, says_nil] at h
  obtain ⟨t, _, rfl, ht, t', _, rfl, ht', rfl⟩ := h
  simp only [animationPhrase, finishWith_eq_ok, identifier_reads, verb_reads] at hok
  obtain ⟨name', _, ⟨_, heq, -⟩, w, _, ⟨_, heq', hw, -⟩, hok⟩ := hok
  cases heq
  cases heq'
  rw [ht'] at hw
  cases hw
  simp only [BEq.rfl, if_true] at hok
  obtain ⟨out, hout, -⟩ := map_eq_ok.1 hok
  exact hunread out hout

/-- The numbers that are not plain stand in phrases about animations. -/
theorem exists_spoiled_phrase {p : Phrase} (hp : p.Valid)
    (hnot : ¬ ∀ x ∈ p.direction.params.numbers, IsPlain x) :
    ∃ good x more, p.chunks = good ++ .number x :: more ∧ (∀ c ∈ good, c.Readable) ∧
      ¬ IsPlain x ∧ ∀ spoiled ts, Says good spoiled ts → Spoiled spoiled →
        ∀ d, phrase ts ≠ .ok d := by
  have hhead : (Chunk.word "Animation").Readable := Chunk.writable_of_mem_words (by decide)
  cases p with
  | sceneBegins | backgroundChanges | panelChanges | actorDisappears | actorFadesOut | actorLooks
  | animationFades | animationLooks => exact absurd (by simp [Phrase.direction, Params.numbers]) hnot
  | actorAppears name e | actorFadesIn name e =>
    obtain ⟨place, facing, emotion⟩ := e
    cases place <;> exact absurd (by simp [Phrase.direction, Entrance.params, Params.numbers]) hnot
  | actorMoves => exact absurd (by simp [Phrase.direction, Params.numbers]) hnot
  | animationAppears name s =>
    have hname : (Chunk.word name).Readable := hp.1
    have happears : (Chunk.word "appears").Readable := Chunk.writable_of_mem_words (by decide)
    obtain ⟨good, x, more, hchunks, hgood, hx, hunread⟩ := exists_spoiled_option hnot
    refine ⟨.word "Animation" :: .word name :: .word "appears" :: good, x, more, ?_, ?_, hx, ?_⟩
    · rw [Phrase.chunks, hchunks]
      rfl
    · simpa [hhead, hname, happears] using hgood
    · rintro spoiled ts ⟨head, rest, rfl, hword, hsays⟩ hspoiled d
      rw [phrase_animation hword]
      have hsays : Says ([.word name, .word "appears"] ++ good) spoiled rest := hsays
      obtain ⟨between, hverb, hsays⟩ := says_append.1 hsays
      exact animationAppears_unread (hunread spoiled between hsays hspoiled) hverb d
  | animationMoves name x y =>
    have hname : (Chunk.word name).Readable := hp
    have hmoves : (Chunk.word "moves").Readable := Chunk.writable_of_mem_words (by decide)
    have hto : (Chunk.word "to").Readable := Chunk.writable_of_mem_words (by decide)
    by_cases hx : IsPlain x
    · have hy : ¬ IsPlain y := fun hy =>
        hnot (by simp [Phrase.direction, Params.numbers, hx, hy])
      have hxr : (Chunk.number x).Readable := hx
      refine ⟨[.word "Animation", .word name, .word "moves", .word "to", .number x], y, [], rfl,
        by simp [hhead, hname, hmoves, hto, hxr], hy, ?_⟩
      rintro spoiled ts ⟨head, rest, rfl, hword, hsays⟩ hspoiled d
      rw [phrase_animation hword]
      have hsays : Says ([.word name, .word "moves", .word "to"] ++ [.number x]) spoiled rest := hsays
      obtain ⟨between, hverb, u, _, rfl, -, rfl⟩ := says_append.1 hsays
      refine animationMoves_unread (fun p hp => ?_) hverb d
      obtain ⟨u', v, x', y', heq, -, hnumber, -⟩ := coordinates_reads.1 hp
      cases heq
      obtain ⟨t, more, hnil, -⟩ := hspoiled.exponent hnumber
      cases hnil
    · refine ⟨[.word "Animation", .word name, .word "moves", .word "to"], x, [.number y], rfl,
        by simp [hhead, hname, hmoves, hto], hx, ?_⟩
      rintro spoiled ts ⟨head, rest, rfl, hword, hsays⟩ hspoiled d
      rw [phrase_animation hword]
      exact animationMoves_unread (fun p hp => coordinates_spoiled hp hspoiled) hsays d

/-- The tokens of a phrase with a number that is not plain say no phrase, if there are any. -/
theorem phrase_of_not_plain {p : Phrase} (hp : p.Valid)
    (hnot : ¬ ∀ x ∈ p.direction.params.numbers, IsPlain x) {after after' : List Char}
    (h : tokens (Chunk.row p.chunks ++ ')' :: after) = .ok (ts, after')) (d : StageDirection) :
    phrase ts ≠ .ok d := by
  obtain ⟨good, x, more, hchunks, hgood, hx, hunread⟩ := exists_spoiled_phrase hp hnot
  rw [hchunks] at h
  obtain ⟨spoiled, hsays, hspoiled⟩ := tokens_row_spoiled hgood hx h
  exact hunread spoiled ts hsays hspoiled d

end VisualNovel.Script
