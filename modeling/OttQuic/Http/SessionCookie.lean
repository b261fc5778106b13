import OttQuic.Auth.Session
import OttQuic.Http.RequestLine

/-!
# The session cookie of a raw request

The cookie header goes through two cuts before `extract_cookie` looks for `SID=`: the parser keeps 32 headers, and
255 bytes of a value. The search then takes the first pair whose name is `SID` in any case.
`session_cookie_found_iff` puts the two together, over any list of headers and any list of pairs.
-/

namespace OttQuic.Http

open CString Auth

/-- A pair in the value of a cookie header. -/
structure CookiePair where
  name : Bytes
  value : Bytes
  name_plain : ∀ c ∈ name, c ≠ 61 ∧ c ≠ 59 ∧ c ≠ 32 ∧ c ≠ 9
  value_plain : 59 ∉ value

def CookiePair.text (pair : CookiePair) : Bytes := pair.name ++ 61 :: pair.value

/-- The pairs with a semicolon and a space between them, and `trail` behind the last. -/
def cookieText (trail : Bytes) : List CookiePair → Bytes
  | [] => trail
  | [pair] => pair.text ++ trail
  | pair :: next :: pairs => pair.text ++ 59 :: 32 :: cookieText trail (next :: pairs)

/-- The name is `SID`, in any case. -/
def CookiePair.isSid (pair : CookiePair) : Bool := eqIgnoreCase pair.name (ascii "SID")

/-- What stands in front of the pair that follows `pairs`. -/
def cookieOffset (pairs : List CookiePair) : Nat := (pairs.map fun pair => pair.text.length + 2).sum

/-- The first pair named `SID` in any case has the value `session`, as far as it is among the first `kept` bytes. -/
def SidKept (trail : Bytes) (pairs : List CookiePair) (kept : Nat) (session : Bytes) : Prop :=
  ∃ front pair back, pairs = front ++ pair :: back ∧ (∀ other ∈ front, other.isSid = false) ∧ pair.isSid = true ∧
    (pair.value ++ if back = [] then trail else []).take (kept - (cookieOffset front + 4)) = session

/-- A request with one cookie header and no authorization header, and one pair named `SID` in it. -/
structure CookieRequest extends RequestHead where
  before : List HeaderLine
  cookie : HeaderLine
  after : List HeaderLine
  headers_eq : headers = before ++ cookie :: after
  others : ∀ header ∈ before ++ after,
    eqIgnoreCase header.name (ascii "authorization") = false ∧ eqIgnoreCase header.name (ascii "cookie") = false
  cookie_name : eqIgnoreCase cookie.name (ascii "cookie") = true
  blanks : Bytes
  pairs : List CookiePair
  trail : Bytes
  blanks_isBlank : ∀ c ∈ blanks, isBlank c = true
  trail_isBlank : ∀ c ∈ trail, isBlank c = true
  cookie_field : cookie.field = blanks ++ cookieText trail pairs
  session : Bytes
  sid : (pairs.filter fun pair => pair.name = ascii "SID").map CookiePair.value = [session]
  session_length : 1 ≤ session.length ∧ session.length ≤ sessionIdLen
  fits : toRequestHead.print.length ≤ 8192

section

variable {size fuel n : Nat} {trail blanks session t : Bytes} {pair next : CookiePair} {pairs : List CookiePair}

/-! ### The pair that counts -/

theorem not_sidKept_nil : ¬ SidKept trail [] n session := by
  rintro ⟨front, pair, back, hpairs, -⟩
  simp at hpairs

theorem sidKept_of_sid (hsid : pair.isSid = true) :
    SidKept trail (pair :: pairs) n session ↔
      (pair.value ++ if pairs = [] then trail else []).take (n - 4) = session := by
  constructor
  · rintro ⟨front, first, back, hpairs, hfront, -, hvalue⟩
    cases front with
    | nil =>
        obtain ⟨rfl, rfl⟩ := List.cons.inj hpairs
        simpa [cookieOffset] using hvalue
    | cons other front =>
        obtain ⟨rfl, -⟩ := List.cons.inj hpairs
        rw [hfront pair List.mem_cons_self] at hsid
        cases hsid
  · intro hvalue
    exact ⟨[], pair, pairs, rfl, List.forall_mem_nil _, hsid, by simpa [cookieOffset] using hvalue⟩

theorem sidKept_of_other (hsid : pair.isSid = false) :
    SidKept trail (pair :: pairs) n session ↔ SidKept trail pairs (n - (pair.text.length + 2)) session := by
  constructor
  · rintro ⟨front, first, back, hpairs, hfront, hfirst, hvalue⟩
    cases front with
    | nil =>
        obtain ⟨rfl, -⟩ := List.cons.inj hpairs
        rw [hsid] at hfirst
        cases hfirst
    | cons other front =>
        obtain ⟨rfl, rfl⟩ := List.cons.inj hpairs
        refine ⟨front, first, back, rfl, fun p hp => hfront p (List.mem_cons_of_mem pair hp), hfirst, ?_⟩
        rw [Nat.sub_sub, ← Nat.add_assoc]
        simpa [cookieOffset] using hvalue
  · rintro ⟨front, first, back, rfl, hfront, hfirst, hvalue⟩
    refine ⟨pair :: front, first, back, rfl, List.forall_mem_cons.mpr ⟨hsid, hfront⟩, hfirst, ?_⟩
    rw [Nat.sub_sub, ← Nat.add_assoc] at hvalue
    simpa [cookieOffset] using hvalue

theorem not_sidKept_zero (hsession : session ≠ []) : ¬ SidKept trail pairs 0 session := by
  rintro ⟨front, pair, back, -, -, -, hvalue⟩
  rw [Nat.zero_sub, List.take_zero] at hvalue
  exact hsession hvalue.symm

/-! ### The search -/

theorem cookieText_cons (trail : Bytes) (pair : CookiePair) (pairs : List CookiePair) :
    cookieText trail (pair :: pairs) = pair.name ++ 61 :: ((pair.value ++ if pairs = [] then trail else []) ++
      if pairs = [] then [] else 59 :: 32 :: cookieText trail pairs) := by
  cases pairs with
  | nil => simp [cookieText, CookiePair.text]
  | cons next pairs => simp [cookieText, CookiePair.text]

theorem toLower_eq_equals {c : UInt8} : toLower c = 61 ↔ c = 61 := by
  rw [toLower]
  split_ifs with hupper
  · simp only [UInt8.le_iff_toNat_le, UInt8.reduceToNat] at hupper
    constructor
    · intro h
      have := congrArg UInt8.toNat h
      simp only [UInt8.toNat_add, UInt8.reduceToNat] at this
      omega
    · rintro rfl
      simp at hupper
  · rfl

theorem startsIgnoreCase_sid {name : Bytes} (hname : 61 ∉ name) (t : Bytes) (n : Nat) :
    startsIgnoreCase ((name ++ 61 :: t).take n) (ascii "SID=") = true ↔
      eqIgnoreCase name (ascii "SID") = true ∧ 4 ≤ n := by
  have hword : (ascii "SID=").map toLower = [115, 105, 100, 61] := by decide
  have hsid : (ascii "SID").map toLower = [115, 105, 100] := by decide
  have hequals : toLower 61 = 61 := by decide
  rw [startsIgnoreCase, eqIgnoreCase, eqIgnoreCase, decide_eq_true_iff, decide_eq_true_iff, hword, hsid, List.take_take]
  by_cases hn : 4 ≤ n
  · rw [show min (ascii "SID=").length n = 4 from Nat.min_eq_left hn]
    -- the equals sign of the prefix can only be the first one of the text
    rcases name with _ | ⟨a, _ | ⟨b, _ | ⟨c, _ | ⟨d, name⟩⟩⟩⟩
    · simp [hequals]
    · simp [hequals]
    · simp [hequals]
    · simp [hequals, hn]
    · have hd : toLower d ≠ 61 := fun h => hname (by simp [toLower_eq_equals.mp h])
      simp [hd]
  · constructor
    · intro h
      have hlength := congrArg List.length h
      rw [List.length_map, List.length_take] at hlength
      simp only [List.length_cons, List.length_nil] at hlength
      omega
    · rintro ⟨-, hle⟩
      exact absurd hle hn

/-- The pair in front is the session: its value is read up to the semicolon or to where the text is cut. -/
theorem takeWhile_value {value : Bytes} (hvalue : 59 ∉ value) (ht : ∀ c ∈ t.head?, c = 59) (n : Nat) :
    ((value ++ t).take n).takeWhile (fun c => c ≠ 59) = value.take n := by
  have hall {m : Nat} : ∀ c ∈ value.take m, decide (c ≠ 59) = true := fun c hc =>
    decide_eq_true (ne_of_mem_of_not_mem (List.mem_of_mem_take hc) hvalue)
  have hrest : (t.take (n - value.length)).takeWhile (fun c => c ≠ 59) = [] := by
    cases t with
    | nil => simp
    | cons c t =>
        cases n - value.length with
        | zero => rfl
        | succ m =>
            obtain rfl := ht c rfl
            exact List.takeWhile_cons_of_neg (by decide)
  rw [List.take_append, List.takeWhile_append_of_pos hall, hrest, List.append_nil]

theorem strchr_take {s : Bytes} (hs : 59 ∉ s) (t : Bytes) (n : Nat) :
    strchr 59 ((s ++ 59 :: t).take n) = if s.length < n then some (59 :: t.take (n - (s.length + 1))) else none := by
  rw [List.take_append]
  split_ifs with hn
  · have hcut : n - s.length = n - (s.length + 1) + 1 := by omega
    rw [List.take_of_length_le hn.le, hcut, List.take_succ_cons, strchr_append_cons hs]
  · rw [Nat.sub_eq_zero_of_le (by omega), List.take_zero, List.append_nil, strchr_eq_none]
    exact fun hmem => hs (List.mem_of_mem_take hmem)

theorem CookiePair.semicolon_notMem_text (pair : CookiePair) : 59 ∉ pair.text := by
  intro hmem
  rcases List.mem_append.mp hmem with hname | hvalue
  · exact (pair.name_plain 59 hname).2.1 rfl
  · rcases List.mem_cons.mp hvalue with heq | hvalue
    · cases heq
    · exact pair.value_plain hvalue

theorem semicolon_notMem_trail (htrail : ∀ c ∈ trail, isBlank c = true) : 59 ∉ trail := fun hmem =>
  absurd (htrail 59 hmem) (by decide)

theorem head_cookieText (trail : Bytes) (pair : CookiePair) (pairs : List CookiePair) :
    ∀ c ∈ (cookieText trail (pair :: pairs)).head?, c ≠ 32 ∧ c ≠ 9 ∧ c ≠ 59 := by
  rw [cookieText_cons]
  cases hname : pair.name with
  | nil =>
      rintro c ⟨⟩
      decide
  | cons d name =>
      rintro c ⟨⟩
      obtain ⟨-, hsemicolon, hspace, htab⟩ := pair.name_plain d (by simp [hname])
      exact ⟨hspace, htab, hsemicolon⟩

theorem dropWhile_cookieText (hblanks : ∀ c ∈ blanks, isBlank c = true) (pair : CookiePair) (pairs : List CookiePair)
    (n : Nat) :
    ((blanks ++ cookieText trail (pair :: pairs)).take n).dropWhile (fun c => c = 32 ∨ c = 9 ∨ c = 59) =
      (cookieText trail (pair :: pairs)).take (n - blanks.length) := by
  have hskip : ∀ c ∈ blanks.take n, decide (c = 32 ∨ c = 9 ∨ c = 59) = true := by
    intro c hc
    rcases of_decide_eq_true (hblanks c (List.mem_of_mem_take hc)) with rfl | rfl <;> decide
  have hhead := head_cookieText trail pair pairs
  rw [List.take_append, List.dropWhile_append_of_pos hskip]
  cases htext : cookieText trail (pair :: pairs) with
  | nil => simp
  | cons c t =>
      rw [htext] at hhead
      obtain ⟨hspace, htab, hsemicolon⟩ := hhead c rfl
      cases n - blanks.length with
      | zero => rfl
      | succ m => exact List.dropWhile_cons_of_neg (by simp [hspace, htab, hsemicolon])

theorem strchr_cookieText (htrail : ∀ c ∈ trail, isBlank c = true)
    (pair : CookiePair) (pairs : List CookiePair) (n : Nat) :
    strchr 59 ((cookieText trail (pair :: pairs)).take n) =
      if pairs ≠ [] ∧ pair.text.length < n then
        some (59 :: (32 :: cookieText trail pairs).take (n - (pair.text.length + 1)))
      else none := by
  cases pairs with
  | nil =>
      rw [if_neg (by simp), cookieText, strchr_eq_none]
      intro hmem
      rcases List.mem_append.mp (List.mem_of_mem_take hmem) with htext | hend
      · exact pair.semicolon_notMem_text htext
      · exact semicolon_notMem_trail htrail hend
  | cons next pairs =>
      rw [cookieText, strchr_take pair.semicolon_notMem_text]
      simp

theorem CookiePair.four_le_length (pair : CookiePair) (hsid : pair.isSid = true) : 4 ≤ pair.text.length := by
  have hlength := congrArg List.length (of_decide_eq_true hsid)
  rw [List.length_map, List.length_map] at hlength
  have hsid : (ascii "SID").length = 3 := by decide
  rw [CookiePair.text, List.length_append, hlength, hsid, List.length_cons]
  omega

theorem cookieText_length (hpairs : pairs ≠ []) :
    (cookieText trail (pair :: pairs)).length = pair.text.length + 2 + (cookieText trail pairs).length := by
  obtain ⟨next, pairs, rfl⟩ := List.exists_cons_of_ne_nil hpairs
  rw [cookieText, List.length_append, List.length_cons, List.length_cons]
  omega

theorem cookieText_ne_nil (hpairs : pairs ≠ []) : cookieText trail pairs ≠ [] := by
  obtain ⟨pair, pairs, rfl⟩ := List.exists_cons_of_ne_nil hpairs
  rw [cookieText_cons]
  simp

theorem takeWhile_cookieText (htrail : ∀ c ∈ trail, isBlank c = true) (hsid : pair.isSid = true) (n : Nat) :
    (((cookieText trail (pair :: pairs)).take n).drop 4).takeWhile (fun c => c ≠ 59) =
      (pair.value ++ if pairs = [] then trail else []).take (n - 4) := by
  have hname : pair.name.length = 3 := by
    have hlength := congrArg List.length (of_decide_eq_true hsid)
    rwa [List.length_map, List.length_map] at hlength
  have hvalue : 59 ∉ pair.value ++ if pairs = [] then trail else [] := by
    intro hmem
    rcases List.mem_append.mp hmem with hvalue | hend
    · exact pair.value_plain hvalue
    · split_ifs at hend
      · exact semicolon_notMem_trail htrail hend
      · cases hend
  have hdrop (t : Bytes) : (pair.name ++ 61 :: t).drop 4 = t := by
    rw [show pair.name ++ 61 :: t = (pair.name ++ [61]) ++ t by simp, List.drop_left' (by simp [hname])]
  rw [List.drop_take, cookieText_cons, hdrop, takeWhile_value hvalue]
  split_ifs
  · exact fun c hc => absurd hc (by simp)
  · exact fun c hc => (Option.some.inj hc).symm

/-- **The search for the cookie**, in the first bytes of a list of pairs. -/
theorem extractCookieLoop_text (hsession : session ≠ []) (hsize : session.length < size)
    (htrail : ∀ c ∈ trail, isBlank c = true) (hblanks : ∀ c ∈ blanks, isBlank c = true) (hpairs : pairs ≠ [])
    (hfuel : ((blanks ++ cookieText trail pairs).take n).length < fuel) :
    extractCookieLoop size fuel ((blanks ++ cookieText trail pairs).take n) = some session ↔
      SidKept trail pairs (n - blanks.length) session := by
  induction fuel generalizing blanks pairs n with
  | zero => exact absurd hfuel (Nat.not_lt_zero _)
  | succ fuel ih =>
      obtain ⟨pair, pairs, rfl⟩ := List.exists_cons_of_ne_nil hpairs
      rw [extractCookieLoop]
      split_ifs with hempty
      · have hzero : n - blanks.length = 0 := by
          rw [List.take_append] at hempty
          exact (List.take_eq_nil_iff.mp (List.append_eq_nil_iff.mp hempty).2).resolve_right (cookieText_ne_nil hpairs)
        rw [hzero]
        exact iff_of_false (by simp) (not_sidKept_zero hsession)
      have hstart := startsIgnoreCase_sid (show 61 ∉ pair.name from fun hmem => (pair.name_plain 61 hmem).1 rfl)
        ((pair.value ++ if pairs = [] then trail else []) ++
          if pairs = [] then [] else 59 :: 32 :: cookieText trail pairs) (n - blanks.length)
      rw [← cookieText_cons] at hstart
      rw [dropWhile_cookieText hblanks]
      dsimp only
      split_ifs with hsid hlong
      · -- a value as long as this is not the session
        rw [takeWhile_cookieText htrail (hstart.mp hsid).1] at hlong
        rw [sidKept_of_sid (hstart.mp hsid).1]
        refine iff_of_false (by simp) fun heq => ?_
        rw [heq] at hlong
        omega
      · rw [takeWhile_cookieText htrail (hstart.mp hsid).1, sidKept_of_sid (hstart.mp hsid).1, Option.some_inj]
      rw [strchr_cookieText htrail]
      cases hname : pair.isSid with
      | true =>
          -- the text is cut inside `SID=`
          have hcut : ¬ 4 ≤ n - blanks.length := fun hn => hsid (hstart.mpr ⟨hname, hn⟩)
          have hlength : 4 ≤ pair.text.length := pair.four_le_length hname
          rw [if_neg (by omega), sidKept_of_sid hname, Nat.sub_eq_zero_of_le (by omega), List.take_zero]
          exact iff_of_false (by simp) (Ne.symm hsession)
      | false =>
          rw [sidKept_of_other hname]
          split_ifs with hnext
          · obtain ⟨hne, hlong⟩ := hnext
            have hspace : ∀ c ∈ [(32 : UInt8)], isBlank c = true := List.forall_mem_singleton.mpr (by decide)
            have hshorter : (([32] ++ cookieText trail pairs).take
                (n - blanks.length - (pair.text.length + 1))).length <
                fuel := by
              rw [List.length_take, List.length_append, cookieText_length hne] at hfuel
              rw [List.length_take, List.length_append, List.length_singleton]
              omega
            have hrest := ih hspace hne hshorter
            rw [List.length_singleton, Nat.sub_sub _ _ 1] at hrest
            exact hrest
          · refine iff_of_false (by simp) fun hkept => ?_
            rcases not_and_or.mp hnext with hlast | hshort
            · rw [not_not.mp hlast] at hkept
              exact not_sidKept_nil hkept
            · rw [Nat.sub_eq_zero_of_le (by omega)] at hkept
              exact not_sidKept_zero hsession hkept

/-! ### The headers -/

theorem HeaderLine.eqIgnoreCase_stored (header : HeaderLine) {name : Bytes}
    (hname : name.length < httpMaxHeaderKey - 1) :
    eqIgnoreCase header.stored.1 name = eqIgnoreCase header.name name := by
  rw [HeaderLine.stored, eqIgnoreCase_toLower, eqIgnoreCase_take hname]

theorem header_stored {req : HttpRequest} {headers : List HeaderLine} {name : Bytes}
    (hreq : req.headers = (headers.map HeaderLine.stored).take httpMaxHeaders)
    (hname : name.length < httpMaxHeaderKey - 1) :
    req.header name = ((headers.take httpMaxHeaders).find? fun header => eqIgnoreCase header.name name).map
      fun header => header.value.take (httpMaxHeaderVal - 1) := by
  rw [HttpRequest.header, hreq, ← List.map_take, List.find?_map, Option.map_map]
  simp only [Function.comp_def, HeaderLine.eqIgnoreCase_stored _ hname]
  rfl

end

namespace CookieRequest

variable (r : CookieRequest)

theorem pairs_ne_nil : r.pairs ≠ [] := by
  intro hnil
  have hsid := r.sid
  rw [hnil] at hsid
  cases hsid

theorem cookie_value : r.cookie.value = cookieText r.trail r.pairs := by
  obtain ⟨pair, pairs, hpairs⟩ := List.exists_cons_of_ne_nil r.pairs_ne_nil
  have hhead := head_cookieText r.trail pair pairs
  have hblank : (fun c : UInt8 => decide (c = 32 ∨ c = 9)) = isBlank := rfl
  rw [HeaderLine.value, r.cookie_field, hblank, List.dropWhile_append_of_pos r.blanks_isBlank, hpairs]
  cases htext : cookieText r.trail (pair :: pairs) with
  | nil => rfl
  | cons c t =>
      rw [htext] at hhead
      obtain ⟨hspace, htab, -⟩ := hhead c rfl
      exact List.dropWhile_cons_of_neg (by simp [isBlank, hspace, htab])

theorem header_authorization {req : HttpRequest}
    (hreq : req.headers = (r.headers.map HeaderLine.stored).take httpMaxHeaders) :
    req.header (ascii "authorization") = none := by
  have hcookie : eqIgnoreCase r.cookie.name (ascii "authorization") = false := by
    refine decide_eq_false fun heq => ?_
    have hname := of_decide_eq_true r.cookie_name
    rw [heq] at hname
    exact absurd hname (by decide)
  rw [header_stored hreq (by decide), Option.map_eq_none_iff, List.find?_eq_none]
  intro header hheader
  have hmem := List.mem_of_mem_take hheader
  rw [r.headers_eq] at hmem
  have hname : eqIgnoreCase header.name (ascii "authorization") = false := by
    rcases List.mem_append.mp hmem with hbefore | hrest
    · exact (r.others header (List.mem_append_left _ hbefore)).1
    · rcases List.mem_cons.mp hrest with rfl | hafter
      · exact hcookie
      · exact (r.others header (List.mem_append_right _ hafter)).1
  rw [hname]
  exact Bool.false_ne_true

theorem header_cookie {req : HttpRequest}
    (hreq : req.headers = (r.headers.map HeaderLine.stored).take httpMaxHeaders) :
    req.header (ascii "cookie") =
      if r.before.length < httpMaxHeaders then some ((cookieText r.trail r.pairs).take (httpMaxHeaderVal - 1))
      else none := by
  have hbefore : ∀ header ∈ r.before, ¬ eqIgnoreCase header.name (ascii "cookie") = true := fun header hheader => by
    rw [(r.others header (List.mem_append_left _ hheader)).2]
    exact Bool.false_ne_true
  rw [header_stored hreq (by decide), r.headers_eq, List.take_append]
  split_ifs with hcount
  · obtain ⟨k, hk⟩ := Nat.exists_eq_add_of_lt hcount
    have hfirst : (r.before.take httpMaxHeaders).find? (fun header => eqIgnoreCase header.name (ascii "cookie")) =
        none :=
      List.find?_eq_none.mpr fun header hheader => hbefore header (List.mem_of_mem_take hheader)
    rw [show httpMaxHeaders - r.before.length = k + 1 by omega, List.take_succ_cons, List.find?_append, hfirst,
      Option.none_or, List.find?_cons, r.cookie_name, Option.map_some, r.cookie_value]
  · rw [Nat.sub_eq_zero_of_le (Nat.le_of_not_lt hcount), List.take_zero, List.append_nil, Option.map_eq_none_iff,
      List.find?_eq_none]
    exact fun header hheader => hbefore header (List.mem_of_mem_take hheader)

end CookieRequest

/-- **The session cookie is found** exactly when its header is among the first 32 and the first pair named `SID` in
any case has the session for its value within the first 255 bytes. -/
theorem session_cookie_found_iff (r : CookieRequest) (malloc : Bool) (body : Bytes) (req : HttpRequest)
    (h : httpParseRequest malloc (r.print ++ body) = some req) :
    sessionExtractFromHeaders req (sessionIdLen + 1) = some r.session ↔
      r.before.length < httpMaxHeaders ∧ SidKept r.trail r.pairs (httpMaxHeaderVal - 1) r.session := by
  have hreq : req.headers = (r.headers.map HeaderLine.stored).take httpMaxHeaders := by
    cases malloc with
    | false =>
        rw [httpParseRequest] at h
        split at h
        · cases h
        · rw [if_pos rfl] at h
          cases h
    | true =>
        rw [httpParseRequest_print] at h
        obtain ⟨⟨method, path, version⟩, -, rfl⟩ := Option.map_eq_some_iff.mp h
        rfl
  have hsession : r.session ≠ [] := List.ne_nil_of_length_pos r.session_length.1
  have hblanks : ∀ c ∈ ([] : Bytes), isBlank c = true := List.forall_mem_nil _
  have hsearch := extractCookieLoop_text hsession (Nat.lt_succ_of_le r.session_length.2) r.trail_isBlank hblanks
    r.pairs_ne_nil (Nat.lt_succ_self ((cookieText r.trail r.pairs).take (httpMaxHeaderVal - 1)).length)
  rw [sessionExtractFromHeaders, r.header_authorization hreq, Option.bind_none]
  dsimp only
  rw [r.header_cookie hreq]
  split_ifs with hcount
  · rw [Option.bind_some, extractCookie]
    exact hsearch.trans (iff_and_self.mpr fun _ => hcount)
  · exact iff_of_false (by simp) fun hkept => hcount hkept.1

theorem exists_cookieRequest (pairs : List CookiePair) (session : Bytes)
    (hpairs : ∀ c ∈ cookieText [] pairs, IsLineChar c) (hfits : (cookieText [] pairs).length ≤ 8000)
    (hsid : (pairs.filter fun pair => pair.name = ascii "SID").map CookiePair.value = [session])
    (hsession : 1 ≤ session.length ∧ session.length ≤ sessionIdLen) :
    ∃ r : CookieRequest, r.before = [] ∧ r.pairs = pairs ∧ r.trail = [] ∧ r.session = session ∧
      r.print = ascii "GET / HTTP/1.1\r\nCookie: " ++ (cookieText [] pairs ++ ascii "\r\n\r\n") := by
  let cookie : HeaderLine := ⟨ascii "Cookie", 32 :: cookieText [] pairs, by decide, forall_mem_of_all (by decide),
    List.forall_mem_cons.mpr ⟨by decide, hpairs⟩⟩
  let head : RequestHead := ⟨ascii "GET / HTTP/1.1", [cookie], by decide, forall_mem_of_all (by decide)⟩
  have hprint : head.print = ascii "GET / HTTP/1.1\r\nCookie: " ++ (cookieText [] pairs ++ ascii "\r\n\r\n") := by
    simp [RequestHead.print, HeaderLine.print, HeaderLine.text, head, cookie, lineEnd, ascii]
  have hlength : head.print.length ≤ 8192 := by
    have hfront : (ascii "GET / HTTP/1.1\r\nCookie: ").length = 24 := by decide
    have hend : (ascii "\r\n\r\n").length = 4 := by decide
    rw [hprint, List.length_append, List.length_append, hfront, hend]
    omega
  have hname : eqIgnoreCase (ascii "Cookie") (ascii "cookie") = true := by decide
  exact ⟨⟨head, [], cookie, [], rfl, List.forall_mem_nil _, hname, [32], pairs, [], List.forall_mem_singleton.mpr (by decide),
    List.forall_mem_nil _, rfl, session, hsid, hsession, hlength⟩, rfl, rfl, rfl, rfl, hprint⟩

/-- The session in the second pair. -/
theorem session_cookie_found_second :
    ∃ (r : CookieRequest) (req : HttpRequest),
      r.print = ascii "GET / HTTP/1.1\r\nCookie: " ++ (ascii "id=1; SID=B" ++ ascii "\r\n\r\n") ∧
      httpParseRequest true (r.print ++ []) = some req ∧
      (sessionExtractFromHeaders req (sessionIdLen + 1) = some r.session ↔
        r.before.length < httpMaxHeaders ∧ SidKept r.trail r.pairs (httpMaxHeaderVal - 1) r.session) := by
  obtain ⟨r, -, -, -, -, hprint⟩ := exists_cookieRequest
    [⟨ascii "id", ascii "1", forall_mem_of_all (by decide), by decide⟩,
      ⟨ascii "SID", ascii "B", forall_mem_of_all (by decide), by decide⟩] (ascii "B")
    (forall_mem_of_all (by decide)) (by decide) (by decide) (by decide)
  have hparse : httpParseRequest true (r.print ++ []) =
      some ⟨ascii "GET", ascii "/", ascii "HTTP/1.1", [(ascii "cookie", ascii "id=1; SID=B")]⟩ := by
    rw [hprint]
    decide
  exact ⟨r, _, hprint, hparse, session_cookie_found_iff r true [] _ hparse⟩

/-- A cookie of another site whose name differs in its case only is taken for the session. -/
theorem session_cookie_hidden :
    ¬ ∀ (r : CookieRequest) (malloc : Bool) (body : Bytes) (req : HttpRequest),
      httpParseRequest malloc (r.print ++ body) = some req →
        sessionExtractFromHeaders req (sessionIdLen + 1) = some r.session := by
  intro h
  obtain ⟨r, -, -, -, hsession, hprint⟩ := exists_cookieRequest
    [⟨ascii "sid", ascii "A", forall_mem_of_all (by decide), by decide⟩,
      ⟨ascii "SID", ascii "B", forall_mem_of_all (by decide), by decide⟩] (ascii "B")
    (forall_mem_of_all (by decide)) (by decide) (by decide) (by decide)
  have hparse : httpParseRequest true (r.print ++ []) =
      some ⟨ascii "GET", ascii "/", ascii "HTTP/1.1", [(ascii "cookie", ascii "sid=A; SID=B")]⟩ := by
    rw [hprint]
    decide
  have hfound := h r true [] _ hparse
  rw [hsession] at hfound
  exact absurd hfound (by decide)

end OttQuic.Http
