import PkixSsh.X509.PrintedValue

/-!
# Printed names read back

A printed name is cut at every comma and slash, also inside the values, apart from one slash at the
end.
-/

namespace PkixSsh.X509

open List Option

/-- The entries between the separators. White space alone is no last entry. -/
def readTokens (lib : NameLib) : List Bytes → Option X509Name
  | [] => some []
  | [token] =>
    match token.dropWhile isspace with
    | [] => some []
    | c :: s => (entryOfToken lib (c :: s)).map fun e => [e]
  | token :: tokens =>
    (entryOfToken lib (token.dropWhile isspace)).bind fun e =>
      (readTokens lib tokens).map fun es => e :: es

section

variable {lib : NameLib}

lemma readTokens_cons (token : Bytes) {tokens : List Bytes} (h : tokens ≠ []) :
    readTokens lib (token :: tokens) = (entryOfToken lib (token.dropWhile isspace)).bind fun e =>
        (readTokens lib tokens).map fun es => e :: es := by
  cases tokens with
  | nil => exact absurd rfl h
  | cons _ _ => rfl

variable {c : UInt8} {u : Bytes}

lemma isspace_of_isSeparator (h : isSeparator c = true) : isspace c = false := by
  simp only [isSeparator,Bool.or_eq_true,decide_eq_true_eq] at h
  rcases h with rfl | rfl <;> decide

lemma dropWhile_isspace_append (hc : isSeparator c = true) (rest : Bytes) :
    (u ++ c :: rest).dropWhile isspace = u.dropWhile isspace ++ c :: rest := by
  induction u with
  | nil => simp [isspace_of_isSeparator hc]
  | cons b u ih =>
    rw [cons_append,dropWhile_cons,dropWhile_cons]
    split
    · exact ih
    · rfl

lemma takeWhile_isSeparator_append (hu : ∀ c ∈ u, isSeparator c = false)
    (hc : isSeparator c = true) (rest : Bytes) :
    (u ++ c :: rest).takeWhile (fun c => !isSeparator c) = u ∧
      (u ++ c :: rest).dropWhile (fun c => !isSeparator c) = c :: rest := by
  constructor
  · rw [takeWhile_append_of_pos (by simpa using hu)]
    simp [hc]
  · rw [dropWhile_append_of_pos (by simpa using hu)]
    simp [hc]

lemma mem_dropWhile {p q : UInt8 → Bool} (h : ∀ c ∈ u, p c = false) :
    ∀ c ∈ u.dropWhile q, p c = false :=
  fun c hc => h c ((dropWhile_suffix q).subset hc)

lemma exists_first_separator {p : Bytes} (h : ¬ ∀ c ∈ p, isSeparator c = false) :
    ∃ u c rest, p = u ++ c :: rest ∧ (∀ b ∈ u, isSeparator b = false) ∧ isSeparator c = true := by
  induction p with
  | nil => exact absurd (by simp) h
  | cons c p ih =>
    by_cases hc : isSeparator c = true
    · exact ⟨[],c,p,rfl,by simp,hc⟩
    · rw [Bool.not_eq_true] at hc
      obtain ⟨u,b,rest,rfl,hu,hb⟩ := ih fun hp => h (forall_mem_cons.mpr ⟨hc,hp⟩)
      exact ⟨c :: u,b,rest,rfl,forall_mem_cons.mpr ⟨hc,hu⟩,hb⟩

lemma str2nameLoop_eq (fuel : Nat) (p : Bytes) (h : p.length < fuel) :
    str2nameLoop lib fuel p = readTokens lib (p.splitOnP isSeparator) := by
  induction fuel generalizing p with
  | zero => omega
  | succ fuel ih =>
    by_cases hsep : ∀ c ∈ p, isSeparator c = false
    · -- the last token
      rw [splitOnP_eq_singleton hsep]
      have hsep' := mem_dropWhile (q := isspace) hsep
      have hlen := (dropWhile_suffix isspace (l := p)).length_le
      simp only [str2nameLoop,readTokens]
      cases hp : p.dropWhile _ with
      | nil => rfl
      | cons c s =>
        rw [hp] at hsep' hlen
        have htake : (c :: s).takeWhile (fun c => !isSeparator c) = c :: s := by
          simpa using hsep'
        have hdrop : (c :: s).dropWhile (fun c => !isSeparator c) = [] := by
          simpa using hsep'
        obtain ⟨f,rfl⟩ : ∃ f, fuel = f + 1 := ⟨fuel - 1,by simp at hlen; omega⟩
        simp only [htake,hdrop]
        cases entryOfToken lib _ with
        | none => rfl
        | some e => rfl
    · obtain ⟨u,c,rest,hp,hu,hc⟩ := exists_first_separator hsep
      subst hp
      rw [splitOnP_append_cons_of_forall_mem hu c hc,readTokens_cons _ (splitOnP_ne_nil _ _)]
      obtain ⟨htake,hdrop⟩ := takeWhile_isSeparator_append (mem_dropWhile hu) hc rest
      have hne : u.dropWhile isspace ++ c :: rest ≠ [] := by simp
      rw [length_append,length_cons] at h
      simp only [str2nameLoop,dropWhile_isspace_append hc]
      obtain ⟨b,s,hbs⟩ := exists_cons_of_ne_nil hne
      rw [hbs] at htake hdrop ⊢
      simp only [htake,hdrop,drop_succ_cons,drop_zero,ih rest (by omega)]
      cases entryOfToken lib _ with
      | none => rfl
      | some e => rfl

lemma readTokens_cons_eq_some {token : Bytes} {tokens : List Bytes} (h : tokens ≠ [])
    {b : X509Name} (hr : readTokens lib (token :: tokens) = some b) :
    ∃ e es, entryOfToken lib (token.dropWhile isspace) = some e ∧
      readTokens lib tokens = some es ∧ b = e :: es := by
  rw [readTokens_cons token h,bind_eq_some_iff] at hr
  obtain ⟨e,he,hr⟩ := hr
  obtain ⟨es,hes,rfl⟩ := map_eq_some_iff.mp hr
  exact ⟨e,es,he,hes,rfl⟩

lemma readTokens_append {xs ys : List Bytes} (h : ys ≠ []) {b : X509Name}
    (hr : readTokens lib (xs ++ ys) = some b) :
    ∃ bx by', b = bx ++ by' ∧ bx.length = xs.length ∧ readTokens lib ys = some by' := by
  induction xs generalizing b with
  | nil => exact ⟨[],b,rfl,rfl,hr⟩
  | cons x xs ih =>
    obtain ⟨e,es,_,hes,rfl⟩ := readTokens_cons_eq_some (by simp [h]) hr
    obtain ⟨bx,by',rfl,hlen,hy⟩ := ih hes
    exact ⟨e :: bx,by',rfl,by simp [hlen],hy⟩

lemma readTokens_eq_nil {rest : Bytes}
    (h : readTokens lib (rest.splitOnP isSeparator) = some []) : ∀ c ∈ rest, isspace c = true := by
  by_cases hsep : ∀ c ∈ rest, isSeparator c = false
  · rw [splitOnP_eq_singleton hsep] at h
    simp only [readTokens] at h
    cases hr : rest.dropWhile _ with
    | nil => exact dropWhile_eq_nil_iff.mp hr
    | cons c s =>
      rw [hr] at h
      obtain ⟨e,_,he⟩ := map_eq_some_iff.mp h
      simp at he
  · obtain ⟨u,c,s,rfl,hu,hc⟩ := exists_first_separator hsep
    rw [splitOnP_append_cons_of_forall_mem hu c hc] at h
    obtain ⟨e,es,_,_,he⟩ := readTokens_cons_eq_some (splitOnP_ne_nil _ _) h
    simp at he

end

def entryText (lib : NameLib) (e : NameEntry) : Bytes :=
  (sshAsn1StringToUTF8 lib.ssl e.value).getD []

def PrintableName (lib : NameLib) (name : X509Name) : Prop :=
  ∀ e ∈ name, ∃ text, sshAsn1StringToUTF8 lib.ssl e.value = some text ∧ PrintableText text

def keptValue (text : Bytes) : Option Bytes :=
  if text = [] || text.any isSeparator then none else some (readValue text)

/-- A slash at the end of the line ends the last value; white space before it is dropped too. -/
def keptLast (text : Bytes) : Option Bytes :=
  if text.getLast? = some slash && !needsQuotes text then
    if text.dropLast = [] || text.dropLast.any isSeparator then none
    else some (text.dropLast.rdropWhile isspace)
  else keptValue text

def rebuilt (lib : NameLib) : X509Name → Option X509Name
  | [] => some []
  | [e] => ((keptLast (entryText lib e)).bind (entryOfText lib e.object)).map fun x => [x]
  | e :: name =>
    ((keptValue (entryText lib e)).bind (entryOfText lib e.object)).bind fun x =>
      (rebuilt lib name).map fun xs => x :: xs

section

variable {lib : NameLib}

lemma dropWhile_fieldName (hd : lib.Documented) (o : Oid) (s : Bytes) :
    (lib.fieldName o ++ s).dropWhile isspace = lib.fieldName o ++ s := by
  obtain ⟨c,t,hf⟩ := exists_cons_of_ne_nil (hd.fieldName_ne_nil o)
  have hc := (hd.fieldName_chars o c (by simp [hf])).2.2
  rw [hf,cons_append,dropWhile_cons_of_neg (by simp [hc])]

variable {s text : Bytes} {b name : X509Name}

lemma printEntry_eq {e : NameEntry} (h : sshAsn1StringToUTF8 lib.ssl e.value = some text) :
    entryText lib e = text ∧
      printEntry lib e = lib.fieldName e.object ++ equalsSign :: printValue text := by
  simp only [entryText,printEntry,h,getD_some,and_self]

lemma splitOnP_field (hd : lib.Documented) (o : Oid) {u : Bytes}
    (hu : ∀ c ∈ u, isSeparator c = false) :
    (lib.fieldName o ++ equalsSign :: u).splitOnP isSeparator =
        [lib.fieldName o ++ equalsSign :: u] ∧ ∀ c rest, isSeparator c = true →
        (lib.fieldName o ++ equalsSign :: (u ++ c :: rest)).splitOnP isSeparator =
          (lib.fieldName o ++ equalsSign :: u) :: rest.splitOnP isSeparator := by
  have hall : ∀ c ∈ lib.fieldName o ++ equalsSign :: u, isSeparator c = false := by
    intro c hc
    rw [mem_append,mem_cons] at hc
    rcases hc with hc | rfl | hc
    · exact (hd.fieldName_chars o c hc).1
    · decide
    · exact hu c hc
  refine ⟨splitOnP_eq_singleton hall,fun c rest hc => ?_⟩
  have h := splitOnP_append_cons_of_forall_mem hall c hc rest
  simpa using h

lemma readTokens_field (hd : lib.Documented) (o : Oid) (v : Bytes) :
    readTokens lib [lib.fieldName o ++ equalsSign :: v] =
      (entryOfToken lib (lib.fieldName o ++ equalsSign :: v)).map fun e => [e] := by
  have hne : lib.fieldName o ++ equalsSign :: v ≠ [] := by simp
  simp only [readTokens,dropWhile_fieldName hd]
  obtain ⟨c,s,hcs⟩ := exists_cons_of_ne_nil hne
  rw [hcs]

lemma isSeparator_eq_false (h : s.any isSeparator = false) : ∀ c ∈ s, isSeparator c = false := by
  simpa using h

lemma exists_separator (h : s.any isSeparator = true) : ¬ ∀ c ∈ s, isSeparator c = false := by
  simpa using h

lemma readTokens_cut (hd : lib.Documented) {o : Oid} {v : Bytes} (hv : v.any isSeparator = true)
    (hb : b.length = 1)
    (hr : readTokens lib ((lib.fieldName o ++ equalsSign :: v).splitOnP isSeparator) = some b) :
    ∃ u c rest, v = u ++ c :: rest ∧ isSeparator c = true ∧ ∀ b ∈ rest, isspace b = true := by
  obtain ⟨u,c,rest,rfl,hu,hc⟩ := exists_first_separator (exists_separator hv)
  rw [(splitOnP_field hd o hu).2 c rest hc] at hr
  obtain ⟨e,es,_,hes,rfl⟩ := readTokens_cons_eq_some (splitOnP_ne_nil _ _) hr
  rw [length_cons,Nat.add_eq_right,length_eq_zero_iff] at hb
  subst hb
  exact ⟨u,c,rest,rfl,hc,readTokens_eq_nil hes⟩

lemma getLast_of_cut {u rest : Bytes} {c d : UInt8}
    (hrest : ∀ b ∈ rest, isspace b = true) (hd : (u ++ c :: rest).getLast? = some d) :
    d = c ∧ rest = [] ∨ isspace d = true := by
  rcases eq_nil_or_concat rest with rfl | ⟨rest',b,rfl⟩
  · rw [List.getLast?_concat,Option.some.injEq] at hd
    exact .inl ⟨hd.symm,rfl⟩
  · rw [concat_eq_append,← cons_append,← append_assoc,List.getLast?_concat,Option.some.injEq] at hd
    exact .inr (hd ▸ hrest b (by simp))

lemma getLast_printValue (h : PrintableText text) (hne : text ≠ [])
    (hs : ¬ (text.getLast? = some slash ∧ needsQuotes text = false)) :
    ∃ d, (printValue text).getLast? = some d ∧ isSeparator d = false ∧ isspace d = false := by
  by_cases hq : needsQuotes text = true
  · refine ⟨quotationMark,?_,by decide,by decide⟩
    rw [printValue,if_pos hq,List.getLast?_concat]
  · obtain ⟨s,d,rfl⟩ := (eq_nil_or_concat text).resolve_left hne
    rw [concat_eq_append] at *
    have hd := h.bytes d (by simp)
    obtain ⟨s',hs',_⟩ := escapeChar_concat hd
    rw [Bool.not_eq_true] at hq
    have hq' := hq
    simp only [needsQuotes,Bool.or_eq_false_iff,decide_eq_false_iff_not] at hq'
    refine ⟨d,?_,?_,?_⟩
    · rw [printValue,hq,if_neg (by simp),flatMap_append,flatMap_singleton,hs',
        ← append_assoc,List.getLast?_concat]
    · -- a comma needs quotes, and a slash is excluded
      have hcomma : isSpecial d = false := by simpa using (by simpa using hq'.1.1.1 : _ ∧ _).2
      rw [Bool.eq_false_iff]
      intro hsep
      simp only [isSeparator,Bool.or_eq_true,decide_eq_true_eq] at hsep
      rcases hsep with rfl | rfl
      · exact absurd hcomma (by decide)
      · exact hs ⟨by rw [List.getLast?_concat],hq⟩
    · rw [Bool.eq_false_iff]
      intro hsp
      exact hq'.2 (by rw [List.getLast?_concat,(isspace_printable hd.1).mp hsp])

lemma readTokens_slash (hd : lib.Documented) (o : Oid) (h : PrintableText s)
    (hsep : s.any isSeparator = false) (hh : s ≠ [] → s.head? ≠ some 32) :
    readTokens lib ((lib.fieldName o ++ equalsSign ::
        (s.flatMap escapeChar ++ slash :: [])).splitOnP isSeparator) =
      (if s = [] then none else entryOfText lib o (s.rdropWhile isspace)).map fun x => [x] := by
  have hu : ∀ c ∈ s.flatMap _, isSeparator c = false :=
    isSeparator_eq_false (by rw [any_isSeparator_escape h.bytes,hsep])
  have hentry : entryOfToken lib (lib.fieldName o ++ equalsSign :: s.flatMap escapeChar) =
      if s = [] then none else entryOfText lib o (s.rdropWhile isspace) := by
    by_cases hs : s = []
    · rw [entryOfToken_field hd,if_pos ((flatMap_escapeChar_eq_nil h).mpr hs),if_pos hs,ite_self]
    · rw [entryOfToken_escape hd o h hs (hh hs),if_neg hs]
  rw [(splitOnP_field hd o hu).2 slash [] (by decide),readTokens_cons _ (splitOnP_ne_nil _ _),
    dropWhile_fieldName hd,hentry]
  cases (if s = [] then none else entryOfText lib o _) with
  | none => rfl
  | some x => rfl

lemma entryOfToken_keptValue (hd : lib.Documented) (o : Oid) (h : PrintableText text)
    (hsep : text.any isSeparator = false) :
    entryOfToken lib (lib.fieldName o ++ equalsSign :: printValue text) =
      (keptValue text).bind (entryOfText lib o) := by
  by_cases ht : text = []
  · rw [entryOfToken_field hd,if_pos ((printValue_eq_nil h).mpr ht)]
    simp [keptValue,ht]
  · rw [entryOfToken_printValue hd o h ht]
    simp [keptValue,ht,hsep]

lemma keptValue_of_separator (h : text.any isSeparator = true) : keptValue text = none := by
  rw [keptValue,h,Bool.or_true,if_pos rfl]

lemma length_of_map_singleton {x : Option NameEntry} (h : x.map (fun x => [x]) = some b) :
    b.length = 1 := by
  obtain ⟨e,_,rfl⟩ := map_eq_some_iff.mp h
  rfl

lemma readTokens_last_slash_iff (hd : lib.Documented) (o : Oid) (h : PrintableText (s ++ [slash]))
    (hq : needsQuotes (s ++ [slash]) = false) (b : X509Name) : (readTokens lib
        ((lib.fieldName o ++ equalsSign :: printValue (s ++ [slash])).splitOnP isSeparator) =
          some b ∧ b.length = 1) ↔
      ((keptLast (s ++ [slash])).bind (entryOfText lib o)).map (fun x => [x]) = some b := by
  have hprint : printValue (s ++ [slash]) = s.flatMap escapeChar ++ slash :: [] := by
    rw [printValue,hq,flatMap_append]
    rfl
  have hps : PrintableText s := h.of_concat (by decide)
  have hkept : keptLast (s ++ [slash]) =
      if s = [] || s.any isSeparator then none else some (s.rdropWhile isspace) := by
    simp only [keptLast,List.getLast?_concat,hq,dropLast_concat]
    rfl
  rw [hkept,hprint]
  cases hsep : s.any _ with
  | false =>
    have hh : s ≠ [] → s.head? ≠ some 32 := by
      intro hne
      simp only [needsQuotes,Bool.or_eq_false_iff,decide_eq_false_iff_not] at hq
      rw [← List.head?_append_of_ne_nil s hne]
      exact hq.1.2
    have hbind : (if s = [] || false then none else some (s.rdropWhile isspace)).bind
        (entryOfText lib o) =
        if s = [] then none else entryOfText lib o (s.rdropWhile isspace) := by
      by_cases hne : s = [] <;> simp [hne]
    rw [readTokens_slash hd o hps hsep hh,hbind]
    exact ⟨And.left,fun hb => ⟨hb,length_of_map_singleton hb⟩⟩
  | true =>
    -- the final slash stands behind another separator
    refine ⟨fun hread => ?_,fun hb => by simp at hb⟩
    obtain ⟨hr,hb⟩ := hread
    have hv : (s.flatMap escapeChar).any isSeparator = true := by
      rw [any_isSeparator_escape hps.bytes,hsep]
    obtain ⟨u,c,rest,hu,hus,hc⟩ := exists_first_separator (exists_separator hv)
    rw [hu,append_assoc,cons_append,(splitOnP_field hd o hus).2 c _ hc] at hr
    obtain ⟨e,es,_,hes,rfl⟩ := readTokens_cons_eq_some (splitOnP_ne_nil _ _) hr
    rw [length_cons,Nat.add_eq_right,length_eq_zero_iff] at hb
    subst hb
    exact absurd (readTokens_eq_nil hes slash (by simp)) (by decide)

lemma readTokens_last_iff (hd : lib.Documented) (o : Oid) (h : PrintableText text) (b : X509Name)
    : (readTokens lib ((lib.fieldName o ++ equalsSign :: printValue text).splitOnP isSeparator) =
        some b ∧ b.length = 1) ↔
      ((keptLast text).bind (entryOfText lib o)).map (fun x => [x]) = some b := by
  by_cases hs : text.getLast? = some slash ∧ needsQuotes text = false
  · obtain ⟨hl,hq⟩ := hs
    obtain ⟨s,rfl⟩ := List.getLast?_eq_some_iff.mp hl
    exact readTokens_last_slash_iff hd o h hq b
  · have hkept : keptLast text = keptValue text := by
      rw [keptLast,if_neg (by simpa using hs)]
    rw [hkept]
    cases hsep : text.any _ with
    | false =>
      have hu := isSeparator_eq_false ((any_isSeparator_printValue h).trans hsep)
      rw [(splitOnP_field hd o hu).1,readTokens_field hd,entryOfToken_keptValue hd o h hsep]
      exact ⟨And.left,fun hb => ⟨hb,length_of_map_singleton hb⟩⟩
    | true =>
      rw [keptValue_of_separator hsep]
      refine ⟨fun ⟨hr,hb⟩ => ?_,fun hb => by simp at hb⟩
      have hne : text ≠ [] := by
        rintro rfl
        simp at hsep
      obtain ⟨u,c,rest,hv,hc,hrest⟩ :=
        readTokens_cut hd ((any_isSeparator_printValue h).trans hsep) hb hr
      obtain ⟨d,hlast,hds,hdsp⟩ := getLast_printValue h hne hs
      rw [hv] at hlast
      rcases getLast_of_cut hrest hlast with ⟨rfl,_⟩ | hsp
      · rw [hds] at hc
        exact absurd hc (by simp)
      · rw [hdsp] at hsp
        exact absurd hsp (by simp)

lemma sshX509NamePrint_cons (e : NameEntry) (h : name ≠ []) :
    sshX509NamePrint lib (e :: name) = printEntry lib e ++ comma :: sshX509NamePrint lib name := by
  obtain ⟨e',name',rfl⟩ := exists_cons_of_ne_nil h
  simp only [sshX509NamePrint]
  simp

lemma splitOnP_print_cons (e : NameEntry) (h : name ≠ []) :
    (sshX509NamePrint lib (e :: name)).splitOnP isSeparator =
      (printEntry lib e).splitOnP isSeparator ++
        (sshX509NamePrint lib name).splitOnP isSeparator := by
  rw [sshX509NamePrint_cons e h]
  exact splitOnP_append_cons _ _ (by decide)

lemma sshX509NamePrint_head (hd : lib.Documented) (hne : name ≠ []) :
    ∃ c s, sshX509NamePrint lib name = c :: s ∧ isspace c = false ∧ isSeparator c = false := by
  obtain ⟨e,name',rfl⟩ := exists_cons_of_ne_nil hne
  obtain ⟨c,s,hf⟩ := exists_cons_of_ne_nil (hd.fieldName_ne_nil e.object)
  obtain ⟨hsep,_,hsp⟩ := hd.fieldName_chars e.object c (by simp [hf])
  have hentry : ∃ s, printEntry lib e = c :: s := by
    simp only [printEntry,hf]
    exact ⟨_,rfl⟩
  obtain ⟨s,hs⟩ := hentry
  by_cases hn : name' = []
  · rw [hn,sshX509NamePrint,map_singleton,intercalate_singleton,hs]
    exact ⟨c,s,rfl,hsp,hsep⟩
  · rw [sshX509NamePrint_cons e hn,hs]
    exact ⟨c,_,rfl,hsp,hsep⟩

lemma length_le_of_readTokens (hne : name ≠ []) (hp : PrintableName lib name)
    (hr : readTokens lib ((sshX509NamePrint lib name).splitOnP isSeparator) = some b) :
    name.length ≤ b.length := by
  induction name generalizing b with
  | nil => exact absurd rfl hne
  | cons e name ih =>
    by_cases hn : name = []
    · subst hn
      obtain ⟨text,ht,_⟩ := hp e (by simp)
      rw [sshX509NamePrint,map_singleton,(printEntry_eq ht).2] at hr
      refine length_pos_iff.mpr ?_
      rintro rfl
      -- the sign between name and value is no white space
      exact absurd (readTokens_eq_nil hr equalsSign (by simp)) (by decide)
    · rw [splitOnP_print_cons e hn] at hr
      obtain ⟨bx,by',rfl,hlen,hy⟩ := readTokens_append (splitOnP_ne_nil _ _) hr
      have hx := length_pos_iff.mpr (splitOnP_ne_nil isSeparator (printEntry lib e))
      have hrest := ih hn (fun x hx => hp x (mem_cons_of_mem _ hx)) hy
      rw [length_append,length_cons]
      omega

/-- A name of the same length is read exactly when each value is kept and accepted. -/
lemma readTokens_print_iff (hd : lib.Documented) (hne : name ≠ []) (hp : PrintableName lib name)
    (b : X509Name) : (readTokens lib ((sshX509NamePrint lib name).splitOnP isSeparator) = some b ∧
        b.length = name.length) ↔ rebuilt lib name = some b := by
  induction name generalizing b with
  | nil => exact absurd rfl hne
  | cons e name ih =>
    obtain ⟨text,ht,htext⟩ := hp e (by simp)
    have hp' : PrintableName lib name := fun x hx => hp x (mem_cons_of_mem _ hx)
    obtain ⟨heq,hprint⟩ := printEntry_eq ht
    by_cases hn : name = []
    · subst hn
      rw [sshX509NamePrint,map_singleton,intercalate_singleton,hprint]
      simp only [rebuilt,heq]
      exact readTokens_last_iff hd _ htext b
    · have hreb : rebuilt lib (e :: name) =
          ((keptValue text).bind (entryOfText lib e.object)).bind fun x =>
            (rebuilt lib name).map fun xs => x :: xs := by
        simp only [rebuilt,heq]
      rw [splitOnP_print_cons e hn,hreb,hprint]
      cases hsep : text.any _ with
      | false =>
        have hu := isSeparator_eq_false ((any_isSeparator_printValue htext).trans hsep)
        rw [(splitOnP_field hd _ hu).1,singleton_append,
          readTokens_cons _ (splitOnP_ne_nil _ _),dropWhile_fieldName hd,
          entryOfToken_keptValue hd _ htext hsep]
        cases (keptValue text).bind _ with
        | none => simp
        | some x =>
          simp only [bind_some,map_eq_some_iff]
          constructor
          · rintro ⟨⟨es,hes,rfl⟩,hlen⟩
            exact ⟨es,(ih hn hp' es).mp ⟨hes,by simpa using hlen⟩,rfl⟩
          · rintro ⟨es,hes,rfl⟩
            obtain ⟨hr,hlen⟩ := (ih hn hp' es).mpr hes
            exact ⟨⟨es,hr,rfl⟩,by simp [hlen]⟩
      | true =>
        -- two tokens at least, before those of the other attributes
        rw [keptValue_of_separator hsep]
        refine ⟨fun ⟨hr,hb⟩ => ?_,fun hb => by simp at hb⟩
        obtain ⟨u,c,rest,hv,hu,hc⟩ := exists_first_separator
          (exists_separator ((any_isSeparator_printValue htext).trans hsep))
        rw [hv,(splitOnP_field hd _ hu).2 c rest hc] at hr
        obtain ⟨bx,by',rfl,hlen,hy⟩ := readTokens_append (splitOnP_ne_nil _ _) hr
        have hrest := length_le_of_readTokens hn hp' hy
        have hpos := length_pos_iff.mpr (splitOnP_ne_nil isSeparator rest)
        rw [length_append,hlen,length_cons,length_cons] at hb
        omega

lemma x509keyStr2X509NAME_print_iff (hd : lib.Documented) (hne : name ≠ [])
    (hp : PrintableName lib name) (b : X509Name) :
    (x509keyStr2X509NAME lib (sshX509NamePrint lib name) = some b ∧ b.length = name.length) ↔
      rebuilt lib name = some b := by
  rw [x509keyStr2X509NAME,str2nameLoop_eq _ _ (Nat.lt_succ_self _)]
  exact readTokens_print_iff hd hne hp b

end

end PkixSsh.X509
