import PipelineConfig.Http.Message
import PipelineConfig.Proofs.Segments

/-!
# Addresses of paths

The address of something at a server is made by writing its path behind the address of the server.
Reading an address does a lot to it: blanks are dropped, segments that stand for a place are taken out,
characters are encoded. But all this is done to the address of the server alone if the path is *plain*,
that is if its segments consist of characters that stand for themselves
(`PipelineConfig.Http.PlainSegment`): then the path is found behind that of the server as it was
written (`PipelineConfig.Http.Url.read?_append_segments`), and the request for it is the request to the
server, with the path behind it (`PipelineConfig.Http.Request.make_append_segments`).

The address of the server has to end with a slash, and have no query and no fragment, since a path
behind these would be a part of them.
-/

namespace PipelineConfig

namespace Text

variable {sep : Char} {cs before after : List Char}

theorem eq_append_cons_of_cut? (h : cut? sep cs = some (before, after)) :
    cs = before ++ sep :: after := by
  induction cs generalizing before with
  | nil => cases h
  | cons c cs ih =>
    rw [cut?] at h
    split at h
    · obtain ⟨rfl, rfl⟩ := Prod.mk.inj (Option.some.inj h)
      subst c
      rfl
    · obtain ⟨⟨first, rest⟩, hrest, heq⟩ := Option.map_eq_some_iff.mp h
      obtain ⟨rfl, rfl⟩ := Prod.mk.inj heq
      rw [ih hrest, List.cons_append]

theorem cut?_eq_none_iff : cut? sep cs = none ↔ sep ∉ cs := by
  induction cs with
  | nil => simp [cut?]
  | cons c cs ih =>
    rw [cut?, List.mem_cons, not_or, ← ih]
    split
    · rename_i h
      simp [h]
    · rename_i h
      simp [Ne.symm h]

/-- What is written behind a text is behind the place at which it is cut. -/
theorem cut?_append (h : cut? sep cs = some (before, after)) (more : List Char) :
    cut? sep (cs ++ more) = some (before, after ++ more) := by
  have hcs := eq_append_cons_of_cut? h
  rw [hcs, cut?_append_cons_eq_some_iff] at h
  rw [hcs, List.append_assoc, List.cons_append, cut?_append_cons_eq_some_iff]
  exact h

end Text

namespace Http

/-! ### Plain segments -/

/-- A character that stands for itself in the path of an address, and separates nothing. -/
def isPlainChar (c : Char) : Bool :=
  0x20 < c.toNat && c.toNat < 0x7F && !Url.forbiddenInPath.contains c
    && !(['/', '\\', '%'].contains c)

/-- **A plain segment** of a path: it has some characters, all of which stand for themselves, and it
does not stand for a place. -/
structure PlainSegment (segment : String) : Prop where
  ne_empty : segment ≠ ""
  plain : ∀ c ∈ segment.toList, isPlainChar c = true
  ne_here : segment ≠ "."
  ne_above : segment ≠ ".."

instance (segment : String) : Decidable (PlainSegment segment) :=
  -- along the segment: an instance for the quantifier itself might go through all characters there are
  decidable_of_iff (segment ≠ "" ∧ segment.toList.all isPlainChar = true ∧ segment ≠ "." ∧
    segment ≠ "..") ⟨fun ⟨h, h', h'', h'''⟩ => ⟨h, List.all_eq_true.mp h', h'', h'''⟩,
      fun h => ⟨h.1, List.all_eq_true.mpr h.2, h.3, h.4⟩⟩

variable {c : Char}

theorem PlainSegment.slash_notMem {segment : String} (h : PlainSegment segment) :
    '/' ∉ segment.toList :=
  fun hmem => absurd (h.plain '/' hmem) (by decide)

theorem isPlainChar_iff : isPlainChar c = true ↔
    (0x20 < c.toNat ∧ c.toNat < 0x7F) ∧ c ∉ Url.forbiddenInPath ∧ c ∉ ['/', '\\', '%'] := by
  simp [isPlainChar, and_assoc]

namespace Url

/-! ### Segments that are kept as they are -/

variable {segment : String} {segments : List String}

theorem percentEncode_of_plain (h : PlainSegment segment) :
    percentEncode forbiddenInPath segment.toList = segment := by
  have hchar : ∀ c ∈ segment.toList, percentChar forbiddenInPath c = [c] := by
    intro c hc
    obtain ⟨⟨hlow, hhigh⟩, hallowed, -⟩ := isPlainChar_iff.mp (h.plain c hc)
    rw [percentChar, if_neg]
    rintro (hcontrol | hbeyond | hforbidden)
    · omega
    · omega
    · exact hallowed hforbidden
  rw [percentEncode, List.flatMap, List.map_congr_left hchar, ← List.flatMap, List.flatMap_singleton',
    String.ofList_toList]

/-- Of the characters that make up the segments for places, only the dot is plain. -/
theorem toLower_of_plain (hc : isPlainChar c = true) :
    c.toLower ≠ '%' ∧ (c.toLower = '.' → c = '.') := by
  have hcases : ∀ n < 0x7F, n ≠ 0x25 →
      (Char.ofNat n).toLower ≠ '%' ∧ ((Char.ofNat n).toLower = '.' → Char.ofNat n = '.') := by
    decide +kernel
  obtain ⟨⟨-, hhigh⟩, -, hmark⟩ := isPlainChar_iff.mp hc
  have hpercent : c.toNat ≠ 0x25 := by
    intro heq
    have hc : c = '%' := by rw [← Char.ofNat_toNat c, heq]
    exact hmark (by simp [hc])
  simpa using hcases c.toNat hhigh hpercent

theorem eq_of_lowerAscii_eq_dots (h : ∀ c ∈ segment.toList, isPlainChar c = true) {dots : String}
    (hdots : ∀ c ∈ dots.toList, c = '.') (heq : Text.lowerAscii segment = dots) : segment = dots := by
  have hlower : segment.toList.map Char.toLower = dots.toList := by
    rw [← heq, Text.lowerAscii, String.toList_ofList]
  have hself : ∀ c ∈ segment.toList, c.toLower = c := by
    intro c hc
    have hdot := hdots c.toLower (hlower ▸ List.mem_map_of_mem hc)
    rw [hdot, (toLower_of_plain (h c hc)).2 hdot]
  rw [List.map_congr_left hself, List.map_id'] at hlower
  exact String.toList_inj.mp hlower

/-- A plain segment does not stand for a place, however that is written. -/
theorem isHere_of_plain (h : PlainSegment segment) :
    isHere segment = false ∧ isAbove segment = false := by
  have hpercent : ∀ text : String, '%' ∈ text.toList → Text.lowerAscii segment ≠ text := by
    rintro text hmem rfl
    rw [Text.lowerAscii, String.toList_ofList, List.mem_map] at hmem
    obtain ⟨c, hc, hlower⟩ := hmem
    exact (toLower_of_plain (h.plain c hc)).1 hlower
  have habove : Text.lowerAscii segment ≠ ".." := fun heq =>
    h.ne_above (eq_of_lowerAscii_eq_dots h.plain (by simp) heq)
  constructor
  · simp [isHere, h.ne_here, hpercent "%2e" (by decide)]
  · simp [isAbove, habove, hpercent ".%2e" (by decide), hpercent "%2e." (by decide),
      hpercent "%2e%2e" (by decide)]

/-! ### Settling a path -/

/-- What settling does with one segment that is not the last one. -/
def climb (done : List String) (segment : String) : List String :=
  if isAbove segment then done.tail else if isHere segment then done else segment :: done

/-- The segments at the front of a path are settled one after the other. -/
theorem settle_append (done front : List String) {rest : List String} (hrest : rest ≠ []) :
    settle done (front ++ rest) = settle (front.foldl climb done) rest := by
  induction front generalizing done with
  | nil => rfl
  | cons segment front ih =>
    obtain ⟨next, others, hnext⟩ := List.exists_cons_of_ne_nil
      (List.append_ne_nil_of_right_ne_nil front hrest)
    rw [List.cons_append, List.foldl_cons, ← ih, hnext, settle, climb]
    split
    · rfl
    · split <;> rfl

/-- Plain segments at the end of a path stay, behind whatever has become of the front. -/
theorem settle_append_plain (front : List String) (hne : segments ≠ [])
    (h : ∀ segment ∈ segments, PlainSegment segment) :
    settle [] (front ++ segments) = (front.foldl climb []).reverse ++ segments := by
  rw [settle_append [] front hne]
  generalize front.foldl climb [] = done
  induction segments generalizing done with
  | nil => exact absurd rfl hne
  | cons segment segments ih =>
    obtain ⟨hplain, hrest⟩ := List.forall_mem_cons.mp h
    obtain ⟨hhere, habove⟩ := isHere_of_plain hplain
    rcases segments with _ | ⟨next, segments⟩
    · simp [settle, hhere, habove]
    · rw [settle, if_neg (by simp [habove]), if_neg (by simp [hhere]), ih (by simp) hrest]
      simp

/-- The empty segment behind a slash stays, too. -/
theorem settle_append_empty (front : List String) :
    settle [] (front ++ [""]) = (front.foldl climb []).reverse ++ [""] := by
  rw [settle_append [] front (by simp), settle, if_neg (by decide +kernel), if_neg (by decide +kernel),
    List.reverse_cons]

/-! ### Plain paths -/

/-- Behind a slash a path goes on with segments. -/
theorem intercalate_append (front : List String) (hne : segments ≠ []) :
    "/".intercalate (front ++ [""]) ++ "/".intercalate segments
      = "/".intercalate (front ++ segments) := by
  by_cases hfront : front = []
  · simp [hfront]
  · rw [String.intercalate_append_of_ne_nil hfront hne,
      String.intercalate_append_of_ne_nil hfront (by simp), String.intercalate_singleton,
      String.append_empty]

theorem mem_intercalate (h : ∀ segment ∈ segments, PlainSegment segment) {c : Char}
    (hc : c ∈ ("/".intercalate segments).toList) : c = '/' ∨ isPlainChar c = true := by
  induction segments with
  | nil => simp at hc
  | cons segment segments ih =>
    obtain ⟨hplain, hrest⟩ := List.forall_mem_cons.mp h
    by_cases hnil : segments = []
    · rw [hnil, String.intercalate_singleton] at hc
      exact .inr (hplain.plain c hc)
    · rw [String.intercalate_cons_of_ne_nil hnil, String.toList_append, String.toList_append,
        List.mem_append, List.mem_append] at hc
      rcases hc with (hc | hc) | hc
      · exact .inr (hplain.plain c hc)
      · exact .inl (List.mem_singleton.mp hc)
      · exact ih hrest hc

/-- Whatever is done to an address as a whole is not done to a plain path. -/
theorem plain_of_mem_intercalate (h : ∀ segment ∈ segments, PlainSegment segment) {c : Char}
    (hc : c ∈ ("/".intercalate segments).toList) : 0x20 < c.toNat ∧ c ≠ '\\' ∧ c ≠ '#' ∧ c ≠ '?' := by
  rcases mem_intercalate h hc with rfl | hplain
  · decide
  · obtain ⟨⟨hlow, -⟩, hallowed, hmark⟩ := isPlainChar_iff.mp hplain
    refine ⟨hlow, ?_, ?_, ?_⟩
    · rintro rfl
      exact hmark (by decide)
    · rintro rfl
      exact hallowed (by decide)
    · rintro rfl
      exact hallowed (by decide)

/-- Where a path ends with a slash, or has not begun yet, plain segments are put behind it. -/
theorem hostedPath_append {cs : List Char} (hcs : cs = [] ∨ ∃ ys, cs = ys ++ ['/'])
    (hne : segments ≠ []) (h : ∀ segment ∈ segments, PlainSegment segment) :
    hostedPath isSlash (cs ++ ("/".intercalate segments).toList)
      = hostedPath isSlash cs ++ "/".intercalate segments := by
  let slashed := fun c : Char => if isSlash c then '/' else c
  have hslashed : ("/".intercalate segments).toList.map slashed
      = ("/".intercalate segments).toList := by
    have hself : ∀ c ∈ ("/".intercalate segments).toList, slashed c = c := by
      intro c hc
      have hback := (plain_of_mem_intercalate h hc).2.1
      by_cases hslash : c = '/' <;> simp [slashed, isSlash, hslash, hback]
    rw [List.map_congr_left hself, List.map_id']
  have hsplit := Text.splitChars_intercalate hne fun segment hsegment =>
    (h segment hsegment).slash_notMem
  have hencoded : (segments.map String.toList).map (percentEncode forbiddenInPath) = segments := by
    rw [List.map_map]
    exact (List.map_congr_left fun segment hsegment =>
      percentEncode_of_plain (h segment hsegment)).trans (List.map_id _)
  -- what stands in front of the path ends with an empty segment, and the path takes its place
  obtain ⟨front, hfront, hwhole⟩ : ∃ front : List (List Char),
      Text.splitChars '/' (cs.map slashed) = front ++ [[]] ∧
        Text.splitChars '/' ((cs ++ ("/".intercalate segments).toList).map slashed)
          = front ++ segments.map String.toList := by
    rw [List.map_append, hslashed, ← hsplit]
    rcases hcs with rfl | ⟨ys, rfl⟩
    · exact ⟨[], rfl, rfl⟩
    · have hslash : (ys ++ ['/']).map slashed = ys.map slashed ++ '/' :: [] := by
        simp [slashed, isSlash]
      refine ⟨Text.splitChars '/' (ys.map slashed), ?_, ?_⟩
      · rw [hslash, Text.splitChars_eq_splitOn, Text.splitChars_eq_splitOn,
          List.splitOn_append_cons_self, List.splitOn_nil]
      · rw [hslash, List.append_assoc, List.cons_append, List.nil_append, Text.splitChars_eq_splitOn,
          List.splitOn_append_cons_self, Text.splitChars_eq_splitOn, Text.splitChars_eq_splitOn]
  have hempty : percentEncode forbiddenInPath [] = "" := rfl
  simp only [hostedPath]
  rw [hfront, hwhole, List.map_append, List.map_append, hencoded, List.map_singleton, hempty,
    settle_append_plain _ hne h, settle_append_empty, ← intercalate_append _ hne, String.append_assoc]

/-! ### Addresses -/

section Address

variable {cs more : List Char}

theorem dropWhile_append_of_forall {p : Char → Bool} (cs : List Char)
    (hmore : ∀ c ∈ more, p c = false) : (cs ++ more).dropWhile p = cs.dropWhile p ++ more := by
  have hself : more.dropWhile p = more := by
    rcases more with _ | ⟨c, more⟩
    · rfl
    · exact List.dropWhile_cons_of_neg (by simp [hmore c List.mem_cons_self])
  rw [List.dropWhile_append, hself]
  split
  · rename_i hnil
    rw [List.isEmpty_iff.mp hnil, List.nil_append]
  · rfl

/-- What is dropped of an address is dropped in front of its last slash and of what follows it. -/
theorem exists_cleaned (cs : List Char) : ∃ start, ∀ more : List Char,
    (∀ c ∈ more, 0x20 < c.toNat) → cleaned (cs ++ '/' :: more) = start ++ '/' :: more := by
  refine ⟨(cs.dropWhile fun c => c.toNat ≤ 0x20).filter fun c => c ≠ '\t' ∧ c ≠ '\n' ∧ c ≠ '\r',
    fun more hmore => ?_⟩
  have hvisible : ∀ c ∈ '/' :: more, 0x20 < c.toNat :=
    List.forall_mem_cons.mpr ⟨by decide, hmore⟩
  have houter : ∀ c ∈ '/' :: more, decide (c.toNat ≤ 0x20) = false := by
    intro c hc
    simpa using hvisible c hc
  have hend : ∀ xs : List Char,
      ((xs ++ '/' :: more).reverse.dropWhile fun c => c.toNat ≤ 0x20).reverse = xs ++ '/' :: more := by
    intro xs
    obtain ⟨c, rest, hlast⟩ := List.exists_cons_of_ne_nil
      (List.reverse_ne_nil_iff.mpr (List.cons_ne_nil '/' more))
    have hc : c ∈ '/' :: more := List.mem_reverse.mp (by simp [hlast])
    rw [List.reverse_append, hlast, List.cons_append, List.dropWhile_cons_of_neg (by simp [houter c hc]),
      ← List.cons_append, ← hlast, ← List.reverse_append, List.reverse_reverse]
  have hkept : ('/' :: more).filter (fun c => c ≠ '\t' ∧ c ≠ '\n' ∧ c ≠ '\r') = '/' :: more := by
    rw [List.filter_eq_self]
    intro c hc
    have hlow := hvisible c hc
    rw [decide_eq_true_iff]
    refine ⟨?_, ?_, ?_⟩ <;>
    · rintro rfl
      exact absurd hlow (by decide)
  simp only [cleaned]
  rw [dropWhile_append_of_forall cs houter, hend, List.filter_append, hkept]

theorem readScheme?_append {scheme : String} {rest : List Char}
    (h : readScheme? cs = some (scheme, rest)) (more : List Char) :
    readScheme? (cs ++ more) = some (scheme, rest ++ more) := by
  rw [readScheme?] at h ⊢
  rcases hcut : Text.cut? ':' cs with _ | ⟨name, after⟩
  · rw [hcut] at h
    cases h
  · rw [hcut] at h
    rw [Text.cut?_append hcut]
    rcases name with _ | ⟨c, name⟩
    · cases h
    · simp only at h ⊢
      split at h
      · rename_i hname
        obtain ⟨rfl, rfl⟩ := Prod.mk.inj (Option.some.inj h)
        rw [if_pos hname]
      · cases h

/-- The scheme ends with a colon, so an address that ends with a slash does so behind the scheme. -/
theorem exists_of_readScheme? {scheme : String} {rest : List Char}
    (h : readScheme? (cs ++ ['/']) = some (scheme, rest)) : ∃ ys, rest = ys ++ ['/'] := by
  obtain ⟨name, hname⟩ : ∃ name, cs ++ ['/'] = name ++ ':' :: rest := by
    rw [readScheme?] at h
    rcases hcut : Text.cut? ':' (cs ++ ['/']) with _ | ⟨name, after⟩
    · rw [hcut] at h
      cases h
    · rw [hcut] at h
      rcases name with _ | ⟨c, name⟩
      · cases h
      · simp only at h
        split at h
        · obtain ⟨-, rfl⟩ := Prod.mk.inj (Option.some.inj h)
          exact ⟨_, Text.eq_append_cons_of_cut? hcut⟩
        · cases h
  rcases List.eq_nil_or_concat rest with rfl | ⟨ys, c, rfl⟩
  · exact absurd (List.append_inj_right' hname rfl) (by decide)
  · rw [List.concat_eq_append] at hname ⊢
    have hend : cs ++ ['/'] = name ++ ':' :: ys ++ [c] := by simpa using hname
    obtain rfl : '/' = c := List.singleton_inj.mp (List.append_inj_right' hend rfl)
    exact ⟨ys, rfl⟩

theorem cutOff_snd_eq_none_iff {sep : Char} : (cutOff sep cs).2 = none ↔ sep ∉ cs := by
  rw [cutOff, ← Text.cut?_eq_none_iff]
  rcases Text.cut? sep cs with _ | ⟨before, after⟩ <;> simp

theorem cutOff_of_notMem {sep : Char} (h : sep ∉ cs) : cutOff sep cs = (cs, none) := by
  rw [cutOff, Text.cut?_eq_none_iff.mpr h]

/-- What is read of an address of the web without a query and a fragment, once its scheme is known. -/
def readHosted? (scheme : String) (port : Nat) (rest : List Char) : Option Url :=
  let rest := rest.dropWhile isSlash
  let authority := rest.takeWhile fun c => !isSlash c
  (readHost? (some port) authority).map fun host =>
    ⟨scheme, some host, hostedPath isSlash (rest.drop (authority.length + 1)), none, none⟩

theorem read?_eq_readHosted? {text scheme : String} {port : Nat} {rest : List Char}
    (hscheme : readScheme? (cleaned text.toList) = some (scheme, rest))
    (hport : hostedSchemes.lookup scheme = some port) (hfragment : '#' ∉ rest) (hquery : '?' ∉ rest) :
    read? text = readHosted? scheme port rest := by
  rw [read?, hscheme, Option.bind_eq_bind, Option.bind_some]
  simp only [cutOff_of_notMem hfragment, cutOff_of_notMem hquery, hport, Option.map_none]
  rw [readHosted?, Option.map_eq_bind]
  rfl

/-- An address of the web without a query and a fragment is read like that. -/
theorem exists_of_read? {text : String} {u : Url} (h : read? text = some u) (hweb : u.isWeb = true)
    (hquery : u.query? = none) (hfragment : u.fragment? = none) :
    ∃ port rest, readScheme? (cleaned text.toList) = some (u.scheme, rest) ∧
      hostedSchemes.lookup u.scheme = some port ∧ '#' ∉ rest ∧ '?' ∉ rest := by
  rw [read?, Option.bind_eq_bind] at h
  obtain ⟨⟨scheme, rest⟩, hscheme, hparts⟩ := Option.bind_eq_some_iff.mp h
  rcases hport : hostedSchemes.lookup scheme with _ | port
  · -- no address of the web is read without a host
    have hname : scheme = u.scheme := by
      simp only [hport] at hparts
      split at hparts <;> exact congrArg Url.scheme (Option.some.inj hparts)
    rw [isWeb, ← hname, Bool.or_eq_true, decide_eq_true_iff, decide_eq_true_iff] at hweb
    rcases hweb with rfl | rfl <;> cases hport
  · simp only [hport] at hparts
    obtain ⟨host, -, hu⟩ := Option.bind_eq_some_iff.mp hparts
    obtain rfl := Option.some.inj hu
    have hnumber : '#' ∉ rest := cutOff_snd_eq_none_iff.mp (Option.map_eq_none_iff.mp hfragment)
    rw [cutOff_of_notMem hnumber] at hquery
    exact ⟨port, rest, hscheme, hport, hnumber,
      cutOff_snd_eq_none_iff.mp (Option.map_eq_none_iff.mp hquery)⟩

/-- Behind the host a path that ends with a slash goes on with plain segments. -/
theorem readHosted?_append {scheme : String} {port : Nat} {ys : List Char} {u : Url}
    {segments : List String} (h : readHosted? scheme port (ys ++ ['/']) = some u)
    (hne : segments ≠ []) (hplain : ∀ segment ∈ segments, PlainSegment segment) :
    readHosted? scheme port (ys ++ '/' :: ("/".intercalate segments).toList)
      = some { u with path := u.path ++ "/".intercalate segments } := by
  -- there is a host, so there is something else than slashes in front of the last one
  have hinside : ys.dropWhile isSlash ≠ [] := by
    intro hnil
    have hslashes : (ys ++ ['/']).dropWhile isSlash = [] := by
      simp [List.dropWhile_append, hnil, isSlash]
    rw [readHosted?, hslashes] at h
    cases h
  obtain ⟨ws, hws⟩ : ∃ ws, ys.dropWhile isSlash = ws := ⟨_, rfl⟩
  have hdropped : ∀ more, (ys ++ '/' :: more).dropWhile isSlash = ws ++ '/' :: more := by
    intro more
    rw [List.dropWhile_append, if_neg (by simpa using hinside), hws]
  have hauthority : ∀ more, (ws ++ '/' :: more).takeWhile (fun c => !isSlash c)
      = ws.takeWhile fun c => !isSlash c := by
    intro more
    rw [List.takeWhile_append]
    split
    · rename_i hlength
      rw [(List.takeWhile_prefix _).eq_of_length hlength, List.takeWhile_cons_of_neg (by decide),
        List.append_nil]
    · rfl
  simp only [readHosted?, hdropped, hauthority] at h ⊢
  obtain ⟨host, hhost, hu⟩ := Option.map_eq_some_iff.mp h
  subst hu
  rw [hhost, Option.map_some]
  -- behind the host there is nothing more than the last slash, or a path that ends with it
  let n := (ws.takeWhile fun c => !isSlash c).length
  have hn : n ≤ ws.length := (List.takeWhile_prefix fun c => !isSlash c).length_le
  have hpath : (ws ++ ['/']).drop (n + 1) = [] ∨ ∃ zs, (ws ++ ['/']).drop (n + 1) = zs ++ ['/'] := by
    rcases Nat.lt_or_ge n ws.length with hlt | hge
    · exact .inr ⟨ws.drop (n + 1), List.drop_append_of_le_length hlt⟩
    · exact .inl (List.drop_eq_nil_of_le (by simpa using hge))
  have hmore : (ws ++ '/' :: ("/".intercalate segments).toList).drop (n + 1)
      = (ws ++ ['/']).drop (n + 1) ++ ("/".intercalate segments).toList := by
    rw [List.append_cons, List.drop_append_of_le_length (by simpa using hn)]
  simp only [n] at hpath hmore
  rw [hmore, hostedPath_append hpath hne hplain]

/-- **A plain path behind an address** is found behind the path of the address. -/
theorem read?_append_segments {address : String} {u : Url} (h : read? (address ++ "/") = some u)
    (hweb : u.isWeb = true) (hquery : u.query? = none) (hfragment : u.fragment? = none)
    {segments : List String} (hne : segments ≠ [])
    (hplain : ∀ segment ∈ segments, PlainSegment segment) :
    read? (address ++ "/" ++ "/".intercalate segments)
      = some { u with path := u.path ++ "/".intercalate segments } := by
  obtain ⟨port, rest, hscheme, hport, hnumber, hmark⟩ := exists_of_read? h hweb hquery hfragment
  obtain ⟨start, hstart⟩ := exists_cleaned address.toList
  have hpath : ∀ c ∈ ("/".intercalate segments).toList,
      0x20 < c.toNat ∧ c ≠ '\\' ∧ c ≠ '#' ∧ c ≠ '?' := fun c => plain_of_mem_intercalate hplain
  have hserver : cleaned (address ++ "/").toList = start ++ ['/'] := by
    rw [String.toList_append]
    exact hstart [] (by simp)
  have hwhole : cleaned (address ++ "/" ++ "/".intercalate segments).toList
      = start ++ ['/'] ++ ("/".intercalate segments).toList := by
    rw [String.toList_append, String.toList_append, List.append_assoc, List.append_assoc]
    exact hstart _ fun c hc => (hpath c hc).1
  have hscheme' := hscheme
  rw [hserver] at hscheme'
  obtain ⟨ys, rfl⟩ := exists_of_readScheme? hscheme'
  have hmade := readScheme?_append hscheme' ("/".intercalate segments).toList
  rw [← hwhole, List.append_assoc, List.singleton_append] at hmade
  have hclean : ∀ mark, mark ∉ ys ++ ['/'] → (∀ c ∈ ("/".intercalate segments).toList, c ≠ mark) →
      mark ∉ ys ++ '/' :: ("/".intercalate segments).toList := by
    intro mark hfront hrest
    rw [List.append_cons, List.mem_append, not_or]
    exact ⟨hfront, fun hmem => hrest mark hmem rfl⟩
  rw [read?_eq_readHosted? hscheme hport hnumber hmark] at h
  rw [read?_eq_readHosted? hmade hport (hclean '#' hnumber fun c hc => (hpath c hc).2.2.1)
    (hclean '?' hmark fun c hc => (hpath c hc).2.2.2)]
  exact readHosted?_append h hne hplain

end Address

end Url

/-! ### Requests -/

namespace Request

/-- A request for what is at a path behind that of another request. -/
def below (r : Request) (path : String) : Request :=
  { r with url := { r.url with path := r.url.path ++ path } }

variable {method : Method} {body : String} {headers : List (String × String)}

/-- A request is put together if its address is one of the web, and has a host, and its headers may be
written. -/
theorem make_eq_ok_iff {text : String} {r : Request} :
    make method text headers body = .ok r ↔ ∃ u, Url.read? text = some u ∧ u.host?.isNone = false ∧
      headers.all (fun h => isHeaderValue h.2) = true ∧ u.isWeb = true ∧
      r = ⟨method, u, headers, body⟩ := by
  rw [make]
  rcases Url.read? text with _ | u
  · simp
  · simp only [Option.some.injEq, exists_eq_left']
    rcases u.host?.isNone with _ | _
    · rcases headers.all (fun h => isHeaderValue h.2) with _ | _
      · simp
      · rcases u.isWeb with _ | _
        · simp
        · simpa using eq_comm
    · simp

/-- **The request for a plain path** is the one to the server, with the path behind it. -/
theorem make_append_segments {address : String} {server : Request}
    (h : make method (address ++ "/") headers body = .ok server) (hquery : server.url.query? = none)
    (hfragment : server.url.fragment? = none) {segments : List String} (hne : segments ≠ [])
    (hplain : ∀ segment ∈ segments, PlainSegment segment) :
    make method (address ++ "/" ++ "/".intercalate segments) headers body
      = .ok (server.below ("/".intercalate segments)) := by
  obtain ⟨u, hread, hhost, hheaders, hweb, rfl⟩ := make_eq_ok_iff.mp h
  exact make_eq_ok_iff.mpr ⟨_, Url.read?_append_segments hread hweb hquery hfragment hne hplain, hhost,
    hheaders, hweb, rfl⟩

end Request

end Http

end PipelineConfig
