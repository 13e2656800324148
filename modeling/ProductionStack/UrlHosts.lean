import ProductionStack.KvAwareRouter
import ProductionStack.PodDiscovery
import ProductionStack.StaticLists

namespace ProductionStack.KvAwareRouter

open StaticLists PodDiscovery Regex

section Pieces

variable {sep t : List Char}

theorem firstPiece_eq_nil : firstPiece sep t = [] ↔ t = [] ∨ sep <+: t := by
  cases t with
  | nil => simp [firstPiece]
  | cons c cs =>
    rw [firstPiece]
    split
    next h => simpa using h
    next h =>
      rw [List.isPrefixOf_iff_prefix] at h
      simp [h]

theorem prefix_firstPiece {c : Char} {pre : List Char} (h : c ∉ pre) : pre <+: firstPiece (c :: sep) t ↔ pre <+: t := by
  induction pre generalizing t with
  | nil => simp
  | cons d pre ih =>
    rw [List.mem_cons, not_or] at h
    cases t with
    | nil => simp [firstPiece]
    | cons e t =>
      rw [firstPiece]
      split
      next hsep =>
        have he : c = e := by
          simp only [List.isPrefixOf_cons_cons, Bool.and_eq_true, beq_iff_eq] at hsep
          exact hsep.1
        simp [← he, Ne.symm h.1]
      · simp [List.cons_prefix_cons, ih h.2]

end Pieces

section Parts

def authority (url : List Char) : List Char := (afterFirst ['/', '/'] url).getD []

/-- No port, no path and no line feed begins with the character. -/
def inHost (c : Char) : Bool := c ≠ ':' && c ≠ '/' && c ≠ '\n'

def hostPart (url : List Char) : List Char := (authority url).takeWhile inHost

def afterHost (url : List Char) : List Char := (authority url).dropWhile inHost

structure Parts (url scheme host rest : List Char) : Prop where
  url_eq : url = scheme ++ (':' :: '/' :: '/' :: (host ++ rest))
  scheme_eq : scheme = "http".toList ∨ scheme = "https".toList
  host_in : ∀ c ∈ host, inHost c = true
  rest_out : ∀ c ∈ rest.head?, inHost c = false

theorem inHost_of {p : Char → Bool} (hcolon : p ':' = false) (hslash : p '/' = false) (hline : p '\n' = false) (c : Char)
    (h : p c = true) : inHost c = true := by
  have hne : ∀ d, p d = false → c ≠ d := by
    rintro d hd rfl
    rw [hd] at h
    cases h
  simp [inHost, hne _ hcolon, hne _ hslash, hne _ hline]

theorem over_inHost : (alt domainName (alt (literal "localhost") ipv4)).Over (fun c => inHost c = true) := by
  have hname : (chars isNameChar).Over (fun c => inHost c = true) := inHost_of (by decide) (by decide) (by decide)
  have hletter : (chars isLetter).Over (fun c => inHost c = true) := inHost_of (by decide) (by decide) (by decide)
  have hdigit : (chars isDecimal).Over (fun c => inHost c = true) := inHost_of (by decide) (by decide) (by decide)
  have hdot : (char '.').Over (fun c => inHost c = true) := over_char rfl
  have hlabel : (seq (plus (chars isNameChar)) (char '.')).Over (fun c => inHost c = true) := ⟨⟨hname, hname⟩, hdot⟩
  have hoctet : octet.Over (fun c => inHost c = true) := ⟨hdigit, over_upTo hdigit 2⟩
  have hmore : (seq (char '.') octet).Over (fun c => inHost c = true) := ⟨hdot, hoctet⟩
  have hlocal : ∀ c ∈ "localhost".toList, inHost c = true := List.all_eq_true.mp rfl
  exact ⟨⟨⟨hlabel, hlabel⟩, over_exactly hletter 2, hletter⟩, over_literal hlocal, hoctet, over_exactly hmore 3⟩

theorem validateUrl_parts {url : String} (h : validateUrl url = true) : ∃ scheme host rest, Parts url.toList scheme host rest := by
  obtain ⟨scheme, t₁, hurl, hscheme, h₁⟩ := matches_seq (matches_of_accepts h)
  obtain ⟨colon, t₂, ht₁, hcolon, h₂⟩ := matches_seq h₁
  obtain ⟨host, t₃, ht₂, hhost, h₃⟩ := matches_seq h₂
  obtain ⟨port, t₄, ht₃, hport, h₄⟩ := matches_seq h₃
  obtain ⟨path, eol, ht₄, hpath, heol⟩ := matches_seq h₄
  refine ⟨scheme, host, t₃, ?_, ?_, over_inHost.of_matches hhost, ?_⟩
  · rw [hurl, ht₁, ht₂, matches_literal hcolon]
    rfl
  · exact (matches_alt hscheme).imp matches_literal matches_literal
  · -- the first of the three parts that is there begins with its own character
    rw [ht₃, ht₄]
    rcases matches_optional hport with hport | rfl
    · obtain ⟨u, v, rfl, hu, -⟩ := matches_seq hport
      rw [matches_char hu]
      rintro c ⟨⟩
      rfl
    · rcases matches_optional hpath with hpath | rfl
      · obtain ⟨u, v, rfl, hu, -⟩ := matches_seq hpath
        rw [matches_char hu]
        rintro c ⟨⟩
        rfl
      · rcases matches_optional heol with heol | rfl
        · rw [matches_char heol]
          rintro c ⟨⟩
          rfl
        · rintro c ⟨⟩

section Static

variable {url scheme host rest : List Char}

theorem Parts.scheme_plain (h : Parts url scheme host rest) : ':' ∉ scheme ∧ '/' ∉ scheme := by
  rcases h.scheme_eq with rfl | rfl
  · decide
  · decide

theorem Parts.host_plain (h : Parts url scheme host rest) : ':' ∉ host ∧ '/' ∉ host := by
  constructor
  · intro hmem
    cases h.host_in _ hmem
  · intro hmem
    cases h.host_in _ hmem

theorem Parts.authority_eq (h : Parts url scheme host rest) : authority url = host ++ rest := by
  have hcolon : '/' ∉ scheme ++ [':'] := by simp [h.scheme_plain.2]
  have hsplit : url = (scheme ++ [':']) ++ ('/' :: '/' :: (host ++ rest)) := by simp [h.url_eq]
  rw [authority, hsplit, afterFirst_append hcolon]
  simp [afterFirst, List.isPrefixOf]

theorem Parts.takeWhile_host (h : Parts url scheme host rest) : hostPart url = host ∧ afterHost url = rest := by
  have hrest : rest.takeWhile inHost = [] ∧ rest.dropWhile inHost = rest := by
    cases rest with
    | nil => exact ⟨rfl, rfl⟩
    | cons c rest =>
      have hc := h.rest_out c rfl
      simp [hc]
  rw [hostPart, afterHost, h.authority_eq, List.takeWhile_append_of_pos h.host_in, List.dropWhile_append_of_pos h.host_in, hrest.1,
    hrest.2, List.append_nil]
  exact ⟨rfl, rfl⟩

theorem Parts.lastPiece_eq (h : Parts url scheme host rest) (hcolon : ':' ∉ rest) :
    lastPiece ':' url = '/' :: '/' :: (host ++ rest) := by
  have hnone : ':' ∉ '/' :: '/' :: (host ++ rest) := by simp [h.host_plain.1, hcolon]
  rw [h.url_eq, lastPiece_append hnone]

/-- What query_ip is, by where the text after the last colon is found first: at the colon of the scheme, or after the host. -/
theorem Parts.queryIp_eq (h : Parts url scheme host rest) :
    queryIp (String.ofList url) =
      if lastPiece ':' url <+: '/' :: '/' :: (host ++ rest) then .error .indexError
      else .ok (String.ofList (host ++ firstPiece ['/', '/'] (firstPiece (':' :: lastPiece ':' url) rest))) := by
  rw [queryIp, String.toList_ofList]
  generalize hlast : lastPiece ':' url = tail
  have hcut : firstPiece (':' :: tail) url = scheme ++ firstPiece (':' :: tail) (':' :: '/' :: '/' :: (host ++ rest)) := by
    rw [h.url_eq, firstPiece_append h.scheme_plain.1]
  rw [hcut, afterFirst_append h.scheme_plain.2, firstPiece]
  by_cases hfound : tail <+: '/' :: '/' :: (host ++ rest)
  · have hinitial : (':' :: tail).isPrefixOf (':' :: '/' :: '/' :: (host ++ rest)) = true := by
      rw [List.isPrefixOf_iff_prefix, List.cons_prefix_cons]
      exact ⟨rfl, hfound⟩
    rw [if_pos hinitial, if_pos hfound]
    rfl
  · have hinitial : ¬ (':' :: tail).isPrefixOf (':' :: '/' :: '/' :: (host ++ rest)) = true := by
      rw [List.isPrefixOf_iff_prefix, List.cons_prefix_cons]
      exact fun hboth => hfound hboth.2
    have hslashes : ':' ∉ ['/', '/'] ++ host := by simp [h.host_plain.1]
    have hrest : firstPiece (':' :: tail) ('/' :: '/' :: (host ++ rest)) =
        '/' :: '/' :: (host ++ firstPiece (':' :: tail) rest) := by
      have happend := @firstPiece_append ':' tail _ hslashes rest
      simpa using happend
    have hafter : afterFirst ['/', '/'] (':' :: '/' :: '/' :: (host ++ firstPiece (':' :: tail) rest)) =
        some (host ++ firstPiece (':' :: tail) rest) := by simp [afterFirst, List.isPrefixOf]
    rw [if_neg hinitial, if_neg hfound, hrest, hafter]
    dsimp only
    rw [firstPiece_append h.host_plain.2]

/-- Where the text after the last colon has to stand for the host to be cut out: not after the scheme, and either at once
after the host, or behind a path that begins with a second "//". -/
def HostFound (url : List Char) : Prop :=
  ¬ lastPiece ':' url <+: '/' :: '/' :: authority url ∧
    (':' :: lastPiece ':' url <+: afterHost url ∨ ['/', '/'] <+: afterHost url)

theorem Parts.queryIp_iff (h : Parts url scheme host rest) :
    queryIp (String.ofList url) = .ok (String.ofList host) ↔ HostFound url := by
  rw [h.queryIp_eq, HostFound, h.authority_eq, h.takeWhile_host.2]
  by_cases hfound : lastPiece ':' url <+: '/' :: '/' :: (host ++ rest)
  · simp [hfound]
  · have hne : rest ≠ [] := by
      rintro rfl
      refine hfound ?_
      rw [h.lastPiece_eq List.not_mem_nil]
    have hcolon : ':' ∉ ['/', '/'] := by decide
    rw [if_neg hfound, Except.ok.injEq, String.ofList_inj, List.append_right_eq_self, firstPiece_eq_nil, firstPiece_eq_nil,
      prefix_firstPiece hcolon]
    simp [hfound, hne]

end Static

end Parts

section Urls

theorem isDigit_ne {c d : Char} (h : c.isDigit = true) (hd : d.isDigit = false) : c ≠ d := by
  rintro rfl
  rw [hd] at h
  cases h

/-- The host of a pod is cut out of its URL exactly when no colon in its address has the digits of the port behind it,
and that of a static URL exactly when the text after the last colon of the URL stands where a port does. -/
theorem queryIp_inverts_iff (cfg : PodDiscovery.Settings) (ip url : String) :
    ('/' ∉ ip.toList → cfg.port ≠ "" → (∀ c ∈ cfg.port.toList, c.isDigit = true) →
      (queryIp (engineUrl cfg ip) = .ok ip ↔ ¬ ':' :: cfg.port.toList <:+: ip.toList)) ∧
    (validateUrl url = true → (queryIp url = .ok (String.ofList (hostPart url.toList)) ↔ HostFound url.toList)) := by
  refine ⟨?_, ?_⟩
  · intro hip hne hdigits
    have hcolon : ':' ∉ cfg.port.toList := fun hmem => isDigit_ne (hdigits _ hmem) (by decide) rfl
    have hhead : cfg.port.toList.head? ≠ some '/' := by
      intro hslash
      exact isDigit_ne (hdigits _ (List.mem_of_head? hslash)) (by decide) rfl
    have hport : cfg.port.toList ≠ [] := by simpa using hne
    have hurl : engineUrl cfg ip = String.ofList ("http://".toList ++ ip.toList ++ ':' :: cfg.port.toList) := by
      rw [← String.toList_inj]
      simp [engineUrl]
    rw [hurl, queryIp_pod hip hcolon hhead hport, ← firstPiece_pod hcolon, Except.ok.injEq, ← String.toList_inj,
      String.toList_ofList]
  · intro hurl
    obtain ⟨scheme, host, rest, hparts⟩ := validateUrl_parts hurl
    have hiff := hparts.queryIp_iff
    rwa [String.ofList_toList, ← hparts.takeWhile_host.1] at hiff

instance (url : List Char) : Decidable (HostFound url) :=
  inferInstanceAs (Decidable (¬ _ ∧ (_ ∨ _)))

def podSettings : PodDiscovery.Settings := ⟨"default", "8000", id⟩

theorem queryIp_inverts_plain :
    queryIp (engineUrl podSettings "10.0.0.1") = .ok "10.0.0.1" ∧ queryIp "http://localhost:8000" = .ok "localhost" := by
  have hdigits : ∀ c ∈ podSettings.port.toList, c.isDigit = true := List.all_eq_true.mp rfl
  obtain ⟨hpod, hstatic⟩ := queryIp_inverts_iff podSettings "10.0.0.1" "http://localhost:8000"
  refine ⟨(hpod (by decide) (by decide) hdigits).mpr (by decide), (hstatic (by decide)).mpr ?_⟩
  decide

/-- A URL without a port, and the address of a pod with the digits of the port in it. -/
theorem queryIp_not_inverse :
    (validateUrl "http://localhost" = true ∧ queryIp "http://localhost" = .error .indexError) ∧
      queryIp (engineUrl podSettings "fe80::8000:1") = .ok "fe80:" := by
  decide

end Urls

end ProductionStack.KvAwareRouter
