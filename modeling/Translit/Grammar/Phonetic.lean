import Translit.Grammar.Document

/-!
# The phonetic grammar of Bangla

* `phonetic`: the grammar that is used where none is given, as a document;
* `embedded`: the grammar it describes.
-/

namespace Translit.Grammar

/-- A condition on the text before a match. -/
def before (scope : String) : ConditionEntry :=
  { kind := "prefix".toList, scope? := some scope.toList }

/-- A condition on the text after a match. -/
def after (scope : String) : ConditionEntry :=
  { kind := "suffix".toList, scope? := some scope.toList }

/-- A condition that compares the text before a match. -/
def beforeText (scope value : String) : ConditionEntry :=
  { before scope with value? := some value.toList }

/-- A condition that compares the text after a match. -/
def afterText (scope value : String) : ConditionEntry :=
  { after scope with value? := some value.toList }

/-- A pattern without rules. -/
def plain (find replace : String) : PatternEntry := ⟨find.toList, replace.toList, none⟩

/-- A pattern with rules. -/
def ruled (find replace : String) (rules : List RuleEntry) : PatternEntry :=
  ⟨find.toList, replace.toList, some rules⟩

/-- The patterns of the phonetic grammar, grouped by the letter they begin with. -/
def phoneticPatterns : List PatternEntry := [
  plain "bhl" "ভ্ল", plain "psh" "পশ", plain "bdh" "ব্ধ", plain "bj" "ব্জ", plain "bd" "ব্দ",
  plain "bb" "ব্ব", plain "bl" "ব্ল", plain "bh" "ভ", plain "vl" "ভ্ল", plain "b" "ব",
  plain "v" "ভ", plain "cNG" "চ্ঞ", plain "cch" "চ্ছ", plain "cc" "চ্চ", plain "ch" "ছ",
  plain "c" "চ", plain "dhn" "ধ্ন", plain "dhm" "ধ্ম", plain "dgh" "দ্ঘ", plain "ddh" "দ্ধ",
  plain "dbh" "দ্ভ", plain "dv" "দ্ভ", plain "dm" "দ্ম", plain "DD" "ড্ড", plain "Dh" "ঢ",
  plain "dh" "ধ", plain "dg" "দ্গ", plain "dd" "দ্দ", plain "D" "ড", plain "d" "দ",
  plain "..." "...", plain ".`" ".", plain ".." "।।", plain "." "।", plain "ghn" "ঘ্ন",
  plain "Ghn" "ঘ্ন", plain "gdh" "গ্ধ", plain "Gdh" "গ্ধ", plain "gN" "গ্ণ", plain "GN" "গ্ণ",
  plain "gn" "গ্ন", plain "Gn" "গ্ন", plain "gm" "গ্ম", plain "Gm" "গ্ম", plain "gl" "গ্ল",
  plain "Gl" "গ্ল", plain "gg" "জ্ঞ", plain "GG" "জ্ঞ", plain "Gg" "জ্ঞ", plain "gG" "জ্ঞ",
  plain "gh" "ঘ", plain "Gh" "ঘ", plain "g" "গ", plain "G" "গ", plain "hN" "হ্ণ",
  plain "hn" "হ্ন", plain "hm" "হ্ম", plain "hl" "হ্ল", plain "h" "হ", plain "jjh" "জ্ঝ",
  plain "jNG" "জ্ঞ", plain "jh" "ঝ", plain "jj" "জ্জ", plain "j" "জ", plain "J" "জ",
  plain "kkhN" "ক্ষ্ণ", plain "kShN" "ক্ষ্ণ", plain "kkhm" "ক্ষ্ম", plain "kShm" "ক্ষ্ম",
  plain "kxN" "ক্ষ্ণ", plain "kxm" "ক্ষ্ম", plain "kkh" "ক্ষ", plain "kSh" "ক্ষ",
  plain "ksh" "কশ", plain "kx" "ক্ষ", plain "kk" "ক্ক", plain "kT" "ক্ট", plain "kt" "ক্ত",
  plain "kl" "ক্ল", plain "ks" "ক্স", plain "kh" "খ", plain "k" "ক", plain "lbh" "ল্ভ",
  plain "ldh" "ল্ধ", plain "lkh" "লখ", plain "lgh" "লঘ", plain "lph" "লফ", plain "lk" "ল্ক",
  plain "lg" "ল্গ", plain "lT" "ল্ট", plain "lD" "ল্ড", plain "lp" "ল্প", plain "lv" "ল্ভ",
  plain "lm" "ল্ম", plain "ll" "ল্ল", plain "lb" "ল্ব", plain "l" "ল", plain "mth" "ম্থ",
  plain "mph" "ম্ফ", plain "mbh" "ম্ভ", plain "mpl" "মপ্ল", plain "mn" "ম্ন", plain "mp" "ম্প",
  plain "mv" "ম্ভ", plain "mm" "ম্ম", plain "ml" "ম্ল", plain "mb" "ম্ব", plain "mf" "ম্ফ",
  plain "m" "ম", plain "0" "০", plain "1" "১", plain "2" "২", plain "3" "৩", plain "4" "৪",
  plain "5" "৫", plain "6" "৬", plain "7" "৭", plain "8" "৮", plain "9" "৯",
  plain "NgkSh" "ঙ্ক্ষ", plain "Ngkkh" "ঙ্ক্ষ", plain "NGch" "ঞ্ছ", plain "Nggh" "ঙ্ঘ",
  plain "Ngkh" "ঙ্খ", plain "NGjh" "ঞ্ঝ", plain "ngOU" "ঙ্গৌ", plain "ngOI" "ঙ্গৈ",
  plain "Ngkx" "ঙ্ক্ষ", plain "NGc" "ঞ্চ", plain "nch" "ঞ্ছ", plain "njh" "ঞ্ঝ",
  plain "ngh" "ঙ্ঘ", plain "Ngk" "ঙ্ক", plain "Ngx" "ঙ্ষ", plain "Ngg" "ঙ্গ", plain "Ngm" "ঙ্ম",
  plain "NGj" "ঞ্জ", plain "ndh" "ন্ধ", plain "nTh" "ন্ঠ", plain "NTh" "ণ্ঠ", plain "nth" "ন্থ",
  plain "nkh" "ঙ্খ", plain "ngo" "ঙ্গ", plain "nga" "ঙ্গা", plain "ngi" "ঙ্গি",
  plain "ngI" "ঙ্গী", plain "ngu" "ঙ্গু", plain "ngU" "ঙ্গূ", plain "nge" "ঙ্গে",
  plain "ngO" "ঙ্গো", plain "NDh" "ণ্ঢ", plain "nsh" "নশ", plain "Ngr" "ঙর", plain "NGr" "ঞর",
  plain "ngr" "ংর", plain "nj" "ঞ্জ", plain "Ng" "ঙ", plain "NG" "ঞ", plain "nk" "ঙ্ক",
  plain "ng" "ং", plain "nn" "ন্ন", plain "NN" "ণ্ণ", plain "Nn" "ণ্ন", plain "nm" "ন্ম",
  plain "Nm" "ণ্ম", plain "nd" "ন্দ", plain "nT" "ন্ট", plain "NT" "ণ্ট", plain "nD" "ন্ড",
  plain "ND" "ণ্ড", plain "nt" "ন্ত", plain "ns" "ন্স", plain "nc" "ঞ্চ", plain "n" "ন",
  plain "N" "ণ", plain "OI`" "ৈ", plain "OU`" "ৌ", plain "O`" "ো",
  ruled "OI" "ৈ" [
    ⟨[before "!consonant"], "ঐ".toList⟩,
    ⟨[before "punctuation"], "ঐ".toList⟩],
  ruled "OU" "ৌ" [
    ⟨[before "!consonant"], "ঔ".toList⟩,
    ⟨[before "punctuation"], "ঔ".toList⟩],
  ruled "O" "ো" [
    ⟨[before "!consonant"], "ও".toList⟩,
    ⟨[before "punctuation"], "ও".toList⟩],
  plain "phl" "ফ্ল", plain "pT" "প্ট", plain "pt" "প্ত", plain "pn" "প্ন", plain "pp" "প্প",
  plain "pl" "প্ল", plain "ps" "প্স", plain "ph" "ফ", plain "fl" "ফ্ল", plain "f" "ফ",
  plain "p" "প", plain "rri`" "ৃ",
  ruled "rri" "ৃ" [
    ⟨[before "!consonant"], "ঋ".toList⟩,
    ⟨[before "punctuation"], "ঋ".toList⟩],
  plain "rrZ" "রর\u200d্য", plain "rry" "রর\u200d্য",
  ruled "rZ" "র\u200d্য" [
    ⟨[before "consonant", beforeText "!exact" "r", beforeText "!exact" "y",
      beforeText "!exact" "w", beforeText "!exact" "x"], "্র্য".toList⟩],
  ruled "ry" "র\u200d্য" [
    ⟨[before "consonant", beforeText "!exact" "r", beforeText "!exact" "y",
      beforeText "!exact" "w", beforeText "!exact" "x"], "্র্য".toList⟩],
  ruled "rr" "রর" [
    ⟨[before "!consonant", after "!vowel", afterText "!exact" "r", after "!punctuation"],
      "র্".toList⟩,
    ⟨[before "consonant", beforeText "!exact" "r"], "্রর".toList⟩],
  plain "Rg" "ড়্গ", plain "Rh" "ঢ়", plain "R" "ড়",
  ruled "r" "র" [
    ⟨[before "consonant", beforeText "!exact" "r", beforeText "!exact" "y",
      beforeText "!exact" "w", beforeText "!exact" "x", beforeText "!exact" "Z"], "্র".toList⟩],
  plain "shch" "শ্ছ", plain "ShTh" "ষ্ঠ", plain "Shph" "ষ্ফ", plain "Sch" "শ্ছ",
  plain "skl" "স্ক্ল", plain "skh" "স্খ", plain "sth" "স্থ", plain "sph" "স্ফ",
  plain "shc" "শ্চ", plain "sht" "শ্ত", plain "shn" "শ্ন", plain "shm" "শ্ম", plain "shl" "শ্ল",
  plain "Shk" "ষ্ক", plain "ShT" "ষ্ট", plain "ShN" "ষ্ণ", plain "Shp" "ষ্প", plain "Shf" "ষ্ফ",
  plain "Shm" "ষ্ম", plain "spl" "স্প্ল", plain "sk" "স্ক", plain "Sc" "শ্চ", plain "sT" "স্ট",
  plain "st" "স্ত", plain "sn" "স্ন", plain "sp" "স্প", plain "sf" "স্ফ", plain "sm" "স্ম",
  plain "sl" "স্ল", plain "sh" "শ", plain "St" "শ্ত", plain "Sn" "শ্ন", plain "Sm" "শ্ম",
  plain "Sl" "শ্ল", plain "Sh" "ষ", plain "s" "স", plain "S" "শ", plain "oo`" "ু",
  ruled "oo" "ু" [
    ⟨[before "!consonant", afterText "!exact" "`"], "উ".toList⟩,
    ⟨[before "punctuation", afterText "!exact" "`"], "উ".toList⟩],
  plain "o`" "", plain "oZ" "অ\u200d্য",
  ruled "o" "" [
    ⟨[before "vowel", beforeText "!exact" "o"], "ও".toList⟩,
    ⟨[before "vowel", beforeText "exact" "o"], "অ".toList⟩,
    ⟨[before "punctuation"], "অ".toList⟩],
  plain "tth" "ত্থ", plain "t``" "ৎ", plain "TT" "ট্ট", plain "Tm" "ট্ম", plain "Th" "ঠ",
  plain "tn" "ত্ন", plain "tm" "ত্ম", plain "th" "থ", plain "tt" "ত্ত", plain "T" "ট",
  plain "t" "ত", plain "aZ" "অ্যা",
  ruled "a" "া" [
    ⟨[before "punctuation", afterText "!exact" "`"], "আ".toList⟩,
    ⟨[before "!consonant", beforeText "!exact" "a", afterText "!exact" "`"], "য়া".toList⟩,
    ⟨[beforeText "exact" "a", afterText "!exact" "`"], "আ".toList⟩],
  ruled "i" "ি" [
    ⟨[before "!consonant", afterText "!exact" "`"], "ই".toList⟩,
    ⟨[before "punctuation", afterText "!exact" "`"], "ই".toList⟩],
  ruled "I" "ী" [
    ⟨[before "!consonant", afterText "!exact" "`"], "ঈ".toList⟩,
    ⟨[before "punctuation", afterText "!exact" "`"], "ঈ".toList⟩],
  ruled "ee" "ী" [
    ⟨[before "!consonant", afterText "!exact" "`"], "ঈ".toList⟩,
    ⟨[before "punctuation", afterText "!exact" "`"], "ঈ".toList⟩],
  ruled "u" "ু" [
    ⟨[before "!consonant", afterText "!exact" "`"], "উ".toList⟩,
    ⟨[before "punctuation", afterText "!exact" "`"], "উ".toList⟩],
  ruled "U" "ূ" [
    ⟨[before "!consonant", afterText "!exact" "`"], "ঊ".toList⟩,
    ⟨[before "punctuation", afterText "!exact" "`"], "ঊ".toList⟩],
  ruled "e" "ে" [
    ⟨[before "!consonant", afterText "!exact" "`"], "এ".toList⟩,
    ⟨[before "punctuation", afterText "!exact" "`"], "এ".toList⟩],
  ruled "x" "ক্স" [
    ⟨[before "punctuation"], "এক্স".toList⟩],
  ruled "y" "য়" [
    ⟨[before "!consonant", before "!punctuation"], "য়".toList⟩,
    ⟨[before "punctuation"], "ইয়".toList⟩,
    ⟨[before "consonant", beforeText "!exact" "r", beforeText "!exact" "y",
      beforeText "!exact" "w", beforeText "!exact" "x", beforeText "!exact" "Z"], "্য".toList⟩],
  plain "Y" "য়",
  ruled "w" "ও" [
    ⟨[before "punctuation", after "vowel"], "ওয়".toList⟩,
    ⟨[before "consonant"], "্ব".toList⟩],
  plain "q" "ক", plain "Z" "্য", plain "z" "য", plain "`" "", plain "$" "৳", plain ":`" ":",
  plain ":" "ঃ", plain "^`" "^", plain "^" "ঁ", plain ",," "্\u200c"]

/-- The phonetic grammar as a document. -/
def phonetic : Document where
  vowel := "aeiou".toList
  consonant := "bcdfghjklmnpqrstvwxyz".toList
  caseSensitive := "oiudgjnrstyz".toList
  patterns := phoneticPatterns

/-- The grammar that is used where none is given. -/
def embedded : Except Error Grammar := phonetic.toGrammar

end Translit.Grammar
