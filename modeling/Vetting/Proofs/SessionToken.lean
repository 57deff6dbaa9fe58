import Mathlib.Data.List.TakeWhile
import Vetting.Proofs.SessionBound

/-! # Which token a request shows

The token of a request is the value of its first cookie of the session's name, over all cookie
headers that are texts and all their pieces in order, and if there is no such cookie, what follows
the word `Bearer` in the first authorization header. `Shows` says so without the reader's splitting
and cutting. What comes of a request's session depends on that token alone, so whatever else a
request carries, it does not change who its client is. -/

namespace Vetting

/-! ## Texts in pieces -/

namespace Text

/-- `ps` are the parts of `cs` between the characters `sep`. -/
structure InPieces (sep : Char) (cs : List Char) (ps : List (List Char)) : Prop where
  joined : [sep].intercalate ps = cs
  apart : ∀ p ∈ ps, sep ∉ p
  some_piece : ps ≠ []

theorem not_mem_of_mem_splitOn {sep : Char} {cs p : List Char} (h : p ∈ cs.splitOn sep) :
    sep ∉ p := by
  induction cs generalizing p with
  | nil =>
    rw [List.splitOn_nil, List.mem_singleton] at h
    simp [h]
  | cons c cs ih =>
    obtain ⟨q, qs, hqs⟩ := List.exists_cons_of_ne_nil (List.splitOn_ne_nil sep cs)
    rw [List.splitOn_cons_eq_if_modifyHead, hqs] at h
    rw [hqs] at ih
    split at h
    · rcases List.mem_cons.mp h with rfl | h
      · simp
      · exact ih h
    · next hc =>
      rcases List.mem_cons.mp h with rfl | h
      · have hne : sep ≠ c := fun heq => hc (by simp [heq])
        simpa [hne] using ih List.mem_cons_self
      · exact ih (List.mem_cons_of_mem _ h)

theorem splitOn_eq_iff {sep : Char} {cs : List Char} {ps : List (List Char)} :
    cs.splitOn sep = ps ↔ InPieces sep cs ps := by
  constructor
  · rintro rfl
    exact ⟨List.intercalate_splitOn sep, fun p hp => not_mem_of_mem_splitOn hp,
      List.splitOn_ne_nil sep cs⟩
  · rintro ⟨rfl, hapart, hne⟩
    exact List.splitOn_intercalate sep hapart hne

/-- A text is cut at the first character of a kind that it has. -/
theorem cut_eq_iff {c : Char} {cs xs ys : List Char} :
    (c ∈ cs ∧ cs.takeWhile (· ≠ c) = xs ∧ (cs.dropWhile (· ≠ c)).drop 1 = ys) ↔
      c ∉ xs ∧ cs = xs ++ c :: ys := by
  constructor
  · rintro ⟨hmem, rfl, rfl⟩
    refine ⟨fun h => by simpa using List.mem_takeWhile_imp h, ?_⟩
    have hparts := cs.takeWhile_append_dropWhile (p := fun d => decide (d ≠ c))
    have hhead := List.head?_dropWhile_not (fun d => decide (d ≠ c)) cs
    cases hdrop : cs.dropWhile (fun d => decide (d ≠ c)) with
    | nil =>
      have hnone := List.dropWhile_eq_nil_iff.mp hdrop c hmem
      simp at hnone
    | cons d ds =>
      rw [hdrop] at hhead hparts
      obtain rfl : d = c := by simpa using hhead
      exact hparts.symm
  · rintro ⟨hxs, rfl⟩
    have hne : ∀ d ∈ xs, decide (d ≠ c) = true := by
      intro d hd
      rw [decide_eq_true_iff]
      rintro rfl
      exact hxs hd
    rw [List.takeWhile_append_of_pos hne, List.dropWhile_append_of_pos hne]
    simp

end Text

/-! ## Headers that are texts -/

namespace Http

open Text (Bytes)

/-- A byte that a text in a header may have. -/
def IsVisible (b : UInt8) : Prop := b = 0x09 ∨ 0x20 ≤ b ∧ b ≤ 0x7E

/-- A header's value is a text of these characters. -/
structure ReadsAs (value : Bytes) (cs : List Char) : Prop where
  visible : ∀ b ∈ value, IsVisible b
  chars : cs = Text.plainChars value

theorem isVisible_iff {b : UInt8} :
    IsVisible b ↔ (b = 0x09 || (0x20 ≤ b && b < 0x7F)) = true := by
  have hle : b ≤ 0x7E ↔ b < 0x7F := by
    rw [UInt8.le_iff_toNat_le, UInt8.lt_iff_toNat_lt]
    exact Nat.lt_succ_iff.symm
  simp [IsVisible, hle]

theorem visible?_eq_some_iff {value : Bytes} {s : String} :
    visible? value = some s ↔ ReadsAs value s.toList := by
  have hall : (value.all fun b => b = 0x09 || (0x20 ≤ b && b < 0x7F)) = true ↔
      ∀ b ∈ value, IsVisible b := by
    simp only [List.all_eq_true, ← isVisible_iff]
  have hascii (h : ∀ b ∈ value, IsVisible b) :
      Text.ofUtf8? value = some (String.ofList (Text.plainChars value)) := by
    have hlow : ∀ b ∈ value, b < 0x80 := by
      intro b hb
      rcases h b hb with rfl | ⟨-, hb⟩
      · decide
      · exact UInt8.lt_of_le_of_lt hb (by decide)
    rw [← Text.ofUtf8?_utf8, Text.utf8_plainChars hlow]
  unfold visible?
  by_cases hv : ∀ b ∈ value, IsVisible b
  · rw [if_pos (hall.mpr hv), hascii hv, Option.some.injEq]
    constructor
    · rintro rfl
      exact ⟨hv, String.toList_ofList⟩
    · rintro ⟨-, hs⟩
      rw [← hs, String.ofList_toList]
  · rw [if_neg (mt hall.mp hv)]
    exact iff_of_false (by simp) fun h => hv h.visible

end Http

/-! ## What a token says -/

/-- The claims that a token carries in the second of its three parts. -/
def Token.Carries (token : String) (c : Claims) : Prop :=
  ∃ header payload signature bytes, Token.parts token.toList = [header, payload, signature] ∧
    Text.Base64.decode? payload = some bytes ∧ Wire.Form.ofText Claims bytes = .ok c

theorem Token.carries_of_verify? {secret : Text.Bytes} {now : Nat} {token : String} {i : Identity}
    (h : Token.verify? secret now token = some i) :
    ∃ c, Token.Carries token c ∧ i = c.identity := by
  unfold verify? at h
  split at h
  · next header payload signature hparts =>
    simp only [bind, Option.bind_eq_some_iff] at h
    obtain ⟨_, -, bytes, hbytes, _, -, h⟩ := h
    split at h
    · obtain ⟨c, hc, rfl⟩ := Option.map_eq_some_iff.mp h
      unfold claims? at hc
      split at hc
      · cases hc
      · next c' htext =>
        split at hc <;> cases hc
        exact ⟨c, ⟨header, payload, signature, bytes, hparts, hbytes, htext⟩, rfl⟩
    · cases h
  · cases h

namespace Session

open Http (Headers ReadsAs)
open Text (InPieces IsTrimmed)

/-! ## What a request shows -/

/-- A piece of a cookie header, without blanks at its ends, is a name and a value with an equals
sign between them, the first there is. -/
def IsPair (piece : List Char) (name value : String) : Prop :=
  '=' ∉ name.toList ∧ IsTrimmed piece (name.toList ++ '=' :: value.toList)

/-- The pieces between the semicolons of all cookie headers that are texts, in order. -/
inductive CookiePieces : Headers → List (List Char) → Prop where
  | nil : CookiePieces [] []
  | other {name value hs ps} :
      name ≠ "cookie" → CookiePieces hs ps → CookiePieces ((name, value) :: hs) ps
  | unread {value hs ps} :
      (∀ cs, ¬ ReadsAs value cs) → CookiePieces hs ps → CookiePieces (("cookie", value) :: hs) ps
  | read {value cs qs hs ps} : ReadsAs value cs → InPieces ';' cs qs → CookiePieces hs ps →
      CookiePieces (("cookie", value) :: hs) (qs ++ ps)

/-- The first pair of a name in the cookie headers has this value. -/
def FirstNamed (hs : Headers) (name value : String) : Prop :=
  ∃ before piece after, CookiePieces hs (before ++ piece :: after) ∧ IsPair piece name value ∧
    ∀ p ∈ before, ∀ value, ¬ IsPair p name value

/-- The first authorization header is a text: `Bearer`, a blank and the token. -/
def Bears (hs : Headers) (token : String) : Prop :=
  ∃ before value after, hs = before ++ ("authorization", value) :: after ∧
    (∀ h ∈ before, h.1 ≠ "authorization") ∧ ReadsAs value ("Bearer ".toList ++ token.toList)

/-- The token that is examined where sessions have a cookie of this name. -/
inductive Shows (name : String) (hs : Headers) : String → Prop where
  | cookie {token} : FirstNamed hs name token → Shows name hs token
  | bearer {token} : (∀ value, ¬ FirstNamed hs name value) → Bears hs token → Shows name hs token

variable {hs hs' : Headers} {name value token : String}

theorem cookieOf?_eq_some_iff {piece : List Char} :
    cookieOf? piece = some (name, value) ↔ IsPair piece name value := by
  rw [IsPair, ← Text.trimChars_eq_iff, ← Text.cut_eq_iff, cookieOf?]
  split <;> simp [*, ← String.toList_inj]

theorem exists_cookiePieces (hs : Headers) : ∃ ps, CookiePieces hs ps := by
  induction hs with
  | nil => exact ⟨[], .nil⟩
  | cons h hs ih =>
    obtain ⟨name, value⟩ := h
    obtain ⟨ps, hps⟩ := ih
    by_cases hname : name = "cookie"
    · subst hname
      by_cases hread : ∃ cs, ReadsAs value cs
      · obtain ⟨cs, hcs⟩ := hread
        exact ⟨_, .read hcs (Text.splitOn_eq_iff.mp rfl) hps⟩
      · exact ⟨ps, .unread (fun cs hcs => hread ⟨cs, hcs⟩) hps⟩
    · exact ⟨ps, .other hname hps⟩

theorem visible?_of_readsAs {value : Text.Bytes} {cs : List Char} (h : ReadsAs value cs) :
    Http.visible? value = some (String.ofList cs) :=
  Http.visible?_eq_some_iff.mpr (by rwa [String.toList_ofList])

theorem visible?_of_unread {value : Text.Bytes} (h : ∀ cs, ¬ ReadsAs value cs) :
    Http.visible? value = none := by
  cases hv : Http.visible? value with
  | none => rfl
  | some s => exact absurd (Http.visible?_eq_some_iff.mp hv) (h _)

theorem CookiePieces.cookies_eq {ps : List (List Char)} (h : CookiePieces hs ps) :
    cookies hs = ps.filterMap cookieOf? := by
  unfold cookies Headers.texts Headers.all
  induction h with
  | nil => rfl
  | other hname _ ih => simpa [hname] using ih
  | unread hunread _ ih => simpa [visible?_of_unread hunread] using ih
  | read hread hin _ ih =>
    have hsplit := Text.splitOn_eq_iff.mpr hin
    simpa [visible?_of_readsAs hread, hsplit] using ih

/-- The cookie that is found is the first of its name. -/
theorem lookup_cookies_eq_some_iff :
    (cookies hs).lookup name = some value ↔ FirstNamed hs name value := by
  rw [List.lookup_eq_some_iff]
  constructor
  · rintro ⟨l₁, l₂, hcookies, hbefore⟩
    obtain ⟨ps, hps⟩ := exists_cookiePieces hs
    rw [hps.cookies_eq, List.filterMap_eq_append_iff] at hcookies
    obtain ⟨front, rest, rfl, hfront, hrest⟩ := hcookies
    obtain ⟨skipped, piece, after, rfl, hskipped, hpiece, -⟩ := List.filterMap_eq_cons_iff.mp hrest
    refine ⟨front ++ skipped, piece, after, by simpa using hps, cookieOf?_eq_some_iff.mp hpiece, ?_⟩
    intro p hp value' hpair
    have hp' := cookieOf?_eq_some_iff.mpr hpair
    rcases List.mem_append.mp hp with hp | hp
    · have hmem : (name, value') ∈ l₁ := hfront ▸ List.mem_filterMap.mpr ⟨p, hp, hp'⟩
      simpa using hbefore _ hmem
    · rw [hskipped p hp] at hp'
      cases hp'
  · rintro ⟨before, piece, after, hps, hpair, hbefore⟩
    refine ⟨before.filterMap cookieOf?, after.filterMap cookieOf?, ?_, ?_⟩
    · rw [hps.cookies_eq, List.filterMap_append,
        List.filterMap_cons_some (cookieOf?_eq_some_iff.mpr hpair)]
    · rintro ⟨name', value'⟩ hmem
      obtain ⟨p, hp, hp'⟩ := List.mem_filterMap.mp hmem
      have hne : name ≠ name' := by
        rintro rfl
        exact hbefore p hp value' (cookieOf?_eq_some_iff.mp hp')
      simpa using hne

theorem first?_eq_some_iff {value : Text.Bytes} : hs.first? name = some value ↔
    ∃ before after, hs = before ++ (name, value) :: after ∧ ∀ h ∈ before, h.1 ≠ name := by
  unfold Headers.first? Headers.all
  rw [List.head?_map, Option.map_eq_some_iff]
  constructor
  · rintro ⟨⟨name', value'⟩, hfind, rfl⟩
    rw [List.head?_filter, List.find?_eq_some_iff_append] at hfind
    obtain ⟨hname, before, after, rfl, hbefore⟩ := hfind
    obtain rfl : name' = name := by simpa using hname
    exact ⟨before, after, rfl, fun h hh => by simpa using hbefore h hh⟩
  · rintro ⟨before, after, rfl, hbefore⟩
    have hnone : before.filter (fun h => decide (h.1 = name)) = [] := by
      simpa using hbefore
    exact ⟨(name, value), by simp [hnone], rfl⟩

theorem bearerToken?_eq_some_iff : bearerToken? hs = some token ↔ Bears hs token := by
  unfold bearerToken?
  rw [Option.bind_eq_some_iff]
  constructor
  · rintro ⟨s, hs', h⟩
    obtain ⟨value, hfirst, hread⟩ := Option.bind_eq_some_iff.mp hs'
    obtain ⟨before, after, rfl, hbefore⟩ := first?_eq_some_iff.mp hfirst
    split at h
    · next hprefix =>
      obtain ⟨rest, hrest⟩ := List.isPrefixOf_iff_prefix.mp hprefix
      cases h
      refine ⟨before, value, after, rfl, hbefore, ?_⟩
      have hdrop : s.toList.drop bearer.length = rest := by
        rw [← hrest]
        exact List.drop_left
      have hchars := Http.visible?_eq_some_iff.mp hread
      rw [← hrest] at hchars
      rwa [hdrop, String.toList_ofList (l := rest)]
    · cases h
  · rintro ⟨before, value, after, rfl, hbefore, hread⟩
    refine ⟨_, Option.bind_eq_some_iff.mpr ⟨value, first?_eq_some_iff.mpr ⟨before, after, rfl, hbefore⟩,
      visible?_of_readsAs hread⟩, ?_⟩
    have hlength : bearer.length = bearer.toList.length := rfl
    rw [String.toList_ofList, hlength]
    simp [bearer]

theorem Bears.unique {token' : String} (h : Bears hs token) (h' : Bears hs token') :
    token = token' := by
  rw [← bearerToken?_eq_some_iff] at h h'
  exact Option.some.inj (h.symm.trans h')

theorem Shows.unique {token' : String} (h : Shows name hs token) (h' : Shows name hs token') :
    token = token' := by
  cases h with
  | cookie hfirst =>
    cases h' with
    | cookie hfirst' =>
      rw [← lookup_cookies_eq_some_iff] at hfirst hfirst'
      exact Option.some.inj (hfirst.symm.trans hfirst')
    | bearer hnone => exact absurd hfirst (hnone token)
  | bearer hnone hbears =>
    cases h' with
    | cookie hfirst => exact absurd hfirst (hnone token')
    | bearer _ hbears' => exact hbears.unique hbears'

/-- **The token of a request is the one that it shows**, unless that is empty. -/
theorem Verifier.token?_eq_some_iff (v : Verifier) :
    v.token? hs = some token ↔ Shows v.cookieName hs token ∧ token ≠ "" := by
  rw [Verifier.token?, Option.filter_eq_some_iff]
  refine and_congr ?_ (by simp)
  cases hlookup : (cookies hs).lookup v.cookieName with
  | some value =>
    have hfirst := lookup_cookies_eq_some_iff.mp hlookup
    constructor
    · rintro ⟨⟩
      exact .cookie hfirst
    · rintro (hcookie | ⟨hnone, -⟩)
      · exact hlookup.symm.trans (lookup_cookies_eq_some_iff.mpr hcookie)
      · exact absurd hfirst (hnone value)
  | none =>
    have hnone (value : String) : ¬ FirstNamed hs v.cookieName value := by
      rw [← lookup_cookies_eq_some_iff, hlookup]
      exact fun h => by cases h
    constructor
    · intro h
      exact .bearer hnone (bearerToken?_eq_some_iff.mp h)
    · rintro (hcookie | ⟨-, hbears⟩)
      · exact absurd hcookie (hnone token)
      · exact bearerToken?_eq_some_iff.mpr hbears

/-! ## What comes of it -/

theorem Verifier.verify_congr (v : Verifier) (now : Nat) (h : v.token? hs' = v.token? hs) :
    v.verify now hs' = v.verify now hs := by
  rw [Verifier.verify, Verifier.verify, h]

theorem Verifier.verify_of_no_token {v : Verifier} {now : Nat} (h : v.token? hs = none) :
    v.verify now hs = .error unauthorized := by
  simp [Verifier.verify, h]

theorem Verifier.verify_of_token {v : Verifier} {now : Nat} (h : v.token? hs = some token) :
    v.verify now hs = match Token.verify? (Text.utf8 v.secret) now token with
      | some i => .ok i
      | none => .error unauthorized := by
  rw [Verifier.verify, h]
  rfl

/-- The cookies of one name decide which of them is found. -/
theorem lookup_eq_find? (cs : List (String × String)) (name : String) :
    cs.lookup name = (cs.filter fun c => c.1 = name).head?.map (·.2) := by
  induction cs with
  | nil => rfl
  | cons c cs ih =>
    obtain ⟨other, value⟩ := c
    by_cases hname : other = name
    · simp [hname]
    · have hbeq : (name == other) = false := beq_false_of_ne (Ne.symm hname)
      rw [List.lookup_cons, hbeq, List.filter_cons_of_neg (by simpa using hname)]
      exact ih

/-- Headers without a cookie of the name change nothing before one, and no headers change anything
behind it. -/
theorem FirstNamed.among {before : Headers} (h : FirstNamed hs name value)
    (hbefore : ∀ value, ¬ FirstNamed before name value) (after : Headers) :
    FirstNamed (before ++ hs ++ after) name value := by
  simp only [← lookup_cookies_eq_some_iff] at h hbefore ⊢
  have happend (xs ys : Headers) : cookies (xs ++ ys) = cookies xs ++ cookies ys := by
    simp [cookies, Headers.texts, Headers.all]
  rw [happend, happend, List.lookup_append, List.lookup_append,
    Option.eq_none_iff_forall_ne_some.mpr hbefore, Option.none_or, h, Option.some_or]

theorem Verifier.token?_of_firstNamed {v : Verifier} (h : FirstNamed hs v.cookieName value)
    (h' : FirstNamed hs' v.cookieName value) : v.token? hs' = v.token? hs := by
  rw [Verifier.token?, Verifier.token?, lookup_cookies_eq_some_iff.mpr h,
    lookup_cookies_eq_some_iff.mpr h']

/-- **A client is known by the token that its request shows, and by nothing else.** The token that
is examined is the one that `Shows` tells of, and there is one at most. If it is not empty, all that
comes of the session is what the token is worth; without a token, or with an empty one, the request
is refused. Headers that show the same token come to the same: other headers and other cookies may
be added, left out or moved, and anything may follow the first cookie of the name. An identity is
told, field by field, by the claims of that one token. -/
theorem known_by_shown_token (v : Verifier) (now : Nat) (hs : Headers) :
    (∀ t t', Shows v.cookieName hs t → Shows v.cookieName hs t' → t = t') ∧
    (∀ t, v.token? hs = some t ↔ Shows v.cookieName hs t ∧ t ≠ "") ∧
    (∀ t, Shows v.cookieName hs t → t ≠ "" →
      v.verify now hs = match Token.verify? (Text.utf8 v.secret) now t with
        | some i => .ok i
        | none => .error ⟨.unauthorized, "invalid or missing session token"⟩) ∧
    ((∀ t, Shows v.cookieName hs t → t = "") →
      v.verify now hs = .error ⟨.unauthorized, "invalid or missing session token"⟩) ∧
    (∀ hs', (∀ t, Shows v.cookieName hs' t ↔ Shows v.cookieName hs t) →
      v.verify now hs' = v.verify now hs) ∧
    (∀ hs', ((cookies hs').filter fun c => c.1 = v.cookieName) =
        ((cookies hs).filter fun c => c.1 = v.cookieName) →
      Headers.first? "authorization" hs' = Headers.first? "authorization" hs →
      v.verify now hs' = v.verify now hs) ∧
    (∀ before value after, (∀ w, ¬ FirstNamed before v.cookieName w) →
      FirstNamed hs v.cookieName value →
      v.verify now (before ++ hs ++ after) = v.verify now hs) ∧
    (∀ i, v.verify now hs = .ok i → ∃ t company member role tier quotaType apiKey expiry,
      Shows v.cookieName hs t ∧
      Token.Carries t ⟨{ company, member, role, tier, quotaType, apiKey }, expiry⟩ ∧
      i = { company, member, role, tier, quotaType, apiKey } ∧
      i.scope = { member, company, tier }) := by
  have htoken (t : String) : v.token? hs = some t ↔ Shows v.cookieName hs t ∧ t ≠ "" :=
    v.token?_eq_some_iff
  refine ⟨fun t t' h h' => h.unique h', htoken, fun t h hne => ?_, fun h => ?_, fun hs' h => ?_,
    fun hs' hcookies hfirst => ?_, fun before value after hbefore h => ?_, fun i h => ?_⟩
  · exact Verifier.verify_of_token ((htoken t).mpr ⟨h, hne⟩)
  · refine Verifier.verify_of_no_token (Option.eq_none_iff_forall_ne_some.mpr fun t ht => ?_)
    obtain ⟨hshows, hne⟩ := (htoken t).mp ht
    exact hne (h t hshows)
  · refine v.verify_congr now (Option.ext fun t => ?_)
    rw [v.token?_eq_some_iff, htoken t, h t]
  · refine v.verify_congr now ?_
    rw [Verifier.token?, Verifier.token?, lookup_eq_find?, lookup_eq_find?, hcookies, bearerToken?,
      bearerToken?, hfirst]
  · exact v.verify_congr now (Verifier.token?_of_firstNamed h (h.among hbefore after))
  · obtain ⟨t, ht, hi⟩ := Option.bind_eq_some_iff.mp (Verifier.verify_eq_ok.mp h)
    obtain ⟨⟨i, expiry⟩, hc, rfl⟩ := Token.carries_of_verify? hi
    obtain ⟨company, member, role, tier, quotaType, apiKey⟩ := i
    exact ⟨t, company, member, role, tier, quotaType, apiKey, expiry, ((htoken t).mp ht).1, hc,
      rfl, rfl⟩

open Api (desk jobsWanted signedIn)

/-- Cookies that come close to a session's. -/
def nearMisses : Headers :=
  [("accept", Text.utf8 "*/*"), ("cookie", [0xFF]),
    ("cookie", Text.utf8 "theme=dark; session =x; Session=y; sessions=z; session")]

/-- Tokens that come too late. -/
def lateTokens : Headers :=
  [("authorization", Text.utf8 "Bearer x"), ("cookie", Text.utf8 "session=y")]

/-- A member who has signed in is known among near misses and late tokens. -/
theorem signedIn_known_in_crowd :
    (∀ value, ¬ FirstNamed nearMisses "session" value) ∧
      (∃ value, FirstNamed jobsWanted.headers "session" value) ∧
      desk.sessions.verify 0 (nearMisses ++ jobsWanted.headers ++ lateTokens) = .ok signedIn := by
  obtain ⟨-, -, -, -, -, -, hamong, hclaims⟩ :=
    known_by_shown_token desk.sessions 0 jobsWanted.headers
  have hnear (value : String) : ¬ FirstNamed nearMisses "session" value := by
    have hnone : (cookies nearMisses).lookup "session" = none := by decide +kernel
    rw [← lookup_cookies_eq_some_iff, hnone]
    exact fun h => by cases h
  have hfirst : ∃ value, FirstNamed jobsWanted.headers "session" value := by
    obtain ⟨t, -, -, -, -, -, -, -, hshows, -⟩ := hclaims signedIn Api.verify_jobsWanted
    cases hshows with
    | cookie h => exact ⟨t, h⟩
    | bearer _ h =>
      obtain ⟨before, value, after, heq, -⟩ := h
      have hmem : ("authorization", value) ∈ jobsWanted.headers := heq ▸ by simp
      simp [jobsWanted] at hmem
  obtain ⟨value, hvalue⟩ := hfirst
  exact ⟨hnear, ⟨value, hvalue⟩,
    (hamong nearMisses value lateTokens hnear hvalue).trans Api.verify_jobsWanted⟩

end Session

end Vetting
