/-!
# Scripts, as runs

`scriptNames` lists the scripts, each with its loosely spelled names separated by full stops.
`scriptRuns` cuts the code points from 0 to 10FFFF into runs: each word is the position of the
script in that list, counted from 1, a full stop, and the length of the run, both in hexadecimal.
Position 0 marks code points of no script. Unicode 17.
-/

namespace XmlSchema.Unicode

def scriptNames : List String :=
  ["adlm.adlam ahom hluw.anatolianhieroglyphs arab.arabic armn.armenian avst.avestan",
   "bali.balinese bamu.bamum bass.bassavah batk.batak beng.bengali beriaerfe.berf bhks.bhaiksuki",
   "bopo.bopomofo brah.brahmi brai.braille bugi.buginese buhd.buhid cans.canadianaboriginal",
   "cari.carian aghb.caucasianalbanian cakm.chakma cham cher.cherokee chrs.chorasmian",
   "zyyy.common copt.coptic.qaac xsux.cuneiform cprt.cypriot cpmn.cyprominoan cyrl.cyrillic",
   "dsrt.deseret deva.devanagari diak.divesakuru dogr.dogra dupl.duployan",
   "egyp.egyptianhieroglyphs elba.elbasan elym.elymaic ethi.ethiopic garay.gara geor.georgian",
   "glag.glagolitic goth.gothic gran.grantha grek.greek gujr.gujarati gong.gunjalagondi",
   "guru.gurmukhi gurungkhema.gukh hani.han hang.hangul rohg.hanifirohingya hano.hanunoo",
   "hatr.hatran hebr.hebrew hira.hiragana armi.imperialaramaic zinh.inherited.qaai",
   "phli.inscriptionalpahlavi prti.inscriptionalparthian java.javanese kthi.kaithi knda.kannada",
   "kana.katakana kawi kali.kayahli khar.kharoshthi kits.khitansmallscript khmr.khmer",
   "khoj.khojki sind.khudawadi kiratrai.krai laoo.lao latn.latin lepc.lepcha limb.limbu",
   "lina.lineara linb.linearb lisu lyci.lycian lydi.lydian mahj.mahajani maka.makasar",
   "mlym.malayalam mand.mandaic mani.manichaean marc.marchen gonm.masaramgondi medf.medefaidrin",
   "mtei.meeteimayek mend.mendekikakui merc.meroiticcursive mero.meroitichieroglyphs plrd.miao",
   "modi mong.mongolian mroo.mro mult.multani mymr.myanmar nbat.nabataean nagm.nagmundari",
   "nand.nandinagari talu.newtailue newa nkoo.nko nshu.nushu hmnp.nyiakengpuachuehmong",
   "ogam.ogham olck.olchiki olonal.onao hung.oldhungarian ital.olditalic narb.oldnortharabian",
   "perm.oldpermic xpeo.oldpersian sogo.oldsogdian sarb.oldsoutharabian orkh.oldturkic",
   "ougr.olduyghur orya.oriya osge.osage osma.osmanya hmng.pahawhhmong palm.palmyrene",
   "pauc.paucinhau phag.phagspa phnx.phoenician phlp.psalterpahlavi rjng.rejang runr.runic",
   "samr.samaritan saur.saurashtra shrd.sharada shaw.shavian sidd.siddham sidetic.sidt",
   "sgnw.signwriting sinh.sinhala sogd.sogdian sora.sorasompeng soyo.soyombo sund.sundanese",
   "sunuwar.sunu sylo.sylotinagri syrc.syriac tglg.tagalog tagb.tagbanwa tale.taile lana.taitham",
   "tavt.taiviet taiyo.tayo takr.takri taml.tamil tnsa.tangsa tang.tangut telu.telugu",
   "thaa.thaana thai tibt.tibetan tfng.tifinagh tirh.tirhuta todhri.todr tolongsiki.tols toto",
   "tulutigalari.tutg ugar.ugaritic zzzz.unknown vaii.vai vith.vithkuqi wcho.wancho",
   "wara.warangciti yezi.yezidi yiii.yi zanb.zanabazarsquare"]

def scriptRuns : List String :=
  ["1a.41 4b.1a 1a.6 4b.1a 1a.2f 4b.1 1a.f 4b.1 1a.5 4b.17 1a.1 4b.1f 1a.1 4b.1c1 1a.27 4b.5",
   "1a.5 e.2 1a.14 3b.70 2e.4 1a.1 2e.3 a8.2 2e.4 1a.1 2e.1 a8.4 2e.1 1a.1 2e.1 1a.1 2e.3 a8.1",
   "2e.1 a8.1 2e.14 a8.1 2e.3f 1b.e 2e.10 1f.85 3b.2 1f.a9 a8.1 5.26 a8.2 5.32 a8.2 5.3 a8.1",
   "38.37 a8.8 38.1b a8.4 38.6 a8.b 4.5 1a.1 4.6 1a.1 4.e 1a.1 4.3 1a.1 4.20 1a.1 4.a 3b.b 4.1a",
   "3b.1 4.6c 1a.1 4.22 92.e a8.1 92.3c a8.2 92.3 4.30 9e.32 a8.e 6a.3b a8.2 6a.3 84.2e a8.2",
   "84.f a8.1 56.1c a8.2 56.1 a8.1 92.b a8.5 4.22 a8.5 4.4b 1a.1 4.1d 21.51 3b.4 21.f 1a.2 21.1a",
   "b.4 a8.1 b.8 a8.2 b.2 a8.2 b.16 a8.1 b.7 a8.1 b.1 a8.3 b.4 a8.2 b.9 a8.2 b.2 a8.2 b.4 a8.8",
   "b.1 a8.4 b.2 a8.1 b.5 a8.2 b.19 a8.2 31.3 a8.1 31.6 a8.4 31.2 a8.2 31.16 a8.1 31.7 a8.1 31.2",
   "a8.1 31.2 a8.1 31.2 a8.2 31.1 a8.1 31.5 a8.4 31.2 a8.2 31.3 a8.3 31.1 a8.7 31.4 a8.1 31.1",
   "a8.7 31.11 a8.a 2f.3 a8.1 2f.9 a8.1 2f.3 a8.1 2f.16 a8.1 2f.7 a8.1 2f.2 a8.1 2f.5 a8.2 2f.a",
   "a8.1 2f.3 a8.1 2f.3 a8.2 2f.1 a8.f 2f.4 a8.2 2f.c a8.7 2f.7 a8.1 79.3 a8.1 79.8 a8.2 79.2",
   "a8.2 79.16 a8.1 79.7 a8.1 79.2 a8.1 79.5 a8.2 79.9 a8.2 79.2 a8.2 79.3 a8.7 79.3 a8.4 79.2",
   "a8.1 79.5 a8.2 79.12 a8.a 9a.2 a8.1 9a.6 a8.3 9a.3 a8.1 9a.4 a8.3 9a.2 a8.1 9a.1 a8.1 9a.2",
   "a8.3 9a.2 a8.3 9a.3 a8.3 9a.c a8.4 9a.5 a8.3 9a.3 a8.1 9a.4 a8.2 9a.1 a8.6 9a.1 a8.e 9a.15",
   "a8.5 9d.d a8.1 9d.3 a8.1 9d.17 a8.1 9d.10 a8.2 9d.9 a8.1 9d.3 a8.1 9d.4 a8.7 9d.2 a8.1 9d.3",
   "a8.1 9d.2 a8.2 9d.4 a8.2 9d.a a8.7 9d.9 40.d a8.1 40.3 a8.1 40.17 a8.1 40.a a8.1 40.5 a8.2",
   "40.9 a8.1 40.3 a8.1 40.4 a8.7 40.2 a8.5 40.3 a8.1 40.4 a8.2 40.a a8.1 40.3 a8.c 55.d a8.1",
   "55.3 a8.1 55.33 a8.1 55.3 a8.1 55.6 a8.4 55.10 a8.2 55.1a a8.1 8b.3 a8.1 8b.12 a8.3 8b.18",
   "a8.1 8b.9 a8.1 8b.1 a8.2 8b.7 a8.3 8b.1 a8.4 8b.6 a8.1 8b.1 a8.1 8b.8 a8.6 8b.a a8.2 8b.3",
   "a8.c 9f.3a a8.4 1a.1 9f.1c a8.25 4a.2 a8.1 4a.1 a8.1 4a.5 a8.1 4a.18 a8.1 4a.1 a8.1 4a.17",
   "a8.2 4a.5 a8.1 4a.1 a8.1 4a.7 a8.1 4a.a a8.2 4a.4 a8.20 a0.48 a8.1 a0.24 a8.4 a0.27 a8.1",
   "a0.24 a8.1 a0.f a8.1 a0.7 1a.4 a0.2 a8.25 64.a0 2a.26 a8.1 2a.1 a8.5 2a.1 a8.2 2a.2b 1a.1",
   "2a.4 34.100 28.49 a8.1 28.4 a8.2 28.7 a8.1 28.1 a8.1 28.4 a8.2 28.29 a8.1 28.4 a8.2 28.21",
   "a8.1 28.4 a8.2 28.7 a8.1 28.1 a8.1 28.4 a8.2 28.f a8.1 28.39 a8.1 28.4 a8.2 28.43 a8.2 28.20",
   "a8.3 28.1a a8.6 18.56 a8.2 18.6 a8.2 13.280 6d.1d a8.3 83.4b 1a.3 83.b a8.7 93.16 a8.9 93.1",
   "36.15 1a.2 a8.9 12.14 a8.c 94.d a8.1 94.3 a8.1 94.2 a8.c 46.5e a8.2 46.a a8.6 46.a a8.6 61.2",
   "1a.2 61.1 1a.1 61.14 a8.6 61.59 a8.7 61.2b a8.5 13.46 a8.a 4d.1f a8.1 4d.c a8.4 4d.c a8.4",
   "4d.1 a8.3 4d.c 95.1e a8.2 95.5 a8.b 68.2c a8.4 68.1a a8.6 68.b a8.3 68.2 46.20 11.1c a8.2",
   "11.2 96.3f a8.1 96.1d a8.2 96.b a8.6 96.a a8.6 96.e a8.2 3b.2e a8.2 3b.c a8.14 7.4d a8.1",
   "7.32 8f.40 a.34 a8.8 a.4 4c.38 a8.3 4c.f a8.3 4c.3 6e.30 1f.b a8.5 2a.2b a8.2 2a.3 8f.8 a8.8",
   "3b.3 1a.1 3b.d 1a.1 3b.7 1a.4 3b.1 1a.6 3b.1 1a.3 3b.2 1a.1 a8.5 4b.26 2e.5 1f.1 4b.31 2e.5",
   "4b.4 2e.5 4b.d 1f.1 4b.46 2e.1 3b.40 4b.100 2e.16 a8.2 2e.6 a8.2 2e.26 a8.2 2e.6 a8.2 2e.8",
   "a8.1 2e.1 a8.1 2e.1 a8.1 2e.1 a8.1 2e.1f a8.2 2e.35 a8.1 2e.f a8.1 2e.e a8.2 2e.6 a8.1 2e.13",
   "a8.2 2e.3 a8.1 2e.9 a8.1 1a.c 3b.2 1a.57 a8.1 1a.b 4b.1 a8.2 1a.b 4b.1 1a.f a8.1 4b.d a8.3",
   "1a.22 a8.e 3b.21 a8.f 1a.26 2e.1 1a.3 4b.2 1a.6 4b.1 1a.1b 4b.1 1a.11 4b.29 1a.3 a8.4 1a.29a",
   "a8.16 1a.b a8.15 1a.3a0 10.100 1a.274 a8.2 1a.8a 2b.60 4b.20 1b.74 a8.5 1b.7 2a.26 a8.1 2a.1",
   "a8.5 2a.1 a8.2 a1.38 a8.7 a1.2 a8.e a1.1 28.17 a8.9 28.7 a8.1 28.7 a8.1 28.7 a8.1 28.7 a8.1",
   "28.7 a8.1 28.7 a8.1 28.7 a8.1 28.7 a8.1 1f.20 1a.5e a8.22 33.1a a8.1 33.59 a8.c 33.d6 a8.1a",
   "1a.15 33.1 1a.1 33.1 1a.19 33.9 3b.4 34.2 1a.8 33.4 1a.4 a8.1 39.56 a8.2 3b.2 1a.2 39.3 1a.1",
   "41.5a 1a.2 41.3 a8.5 e.2b a8.1 34.5e a8.1 1a.10 e.20 1a.26 a8.9 1a.1 41.10 34.1f a8.1 1a.40",
   "34.1f 1a.51 41.2f 1a.1 41.58 1a.a8 33.19c0 1a.40 33.5200 ae.48d a8.3 ae.37 a8.9 50.30 a9.12c",
   "a8.14 1f.60 8.58 a8.8 1a.22 4b.66 1a.3 4b.52 a8.14 4b.f 91.2d a8.3 1a.a a8.6 7f.38 a8.8",
   "85.46 a8.8 85.c a8.6 21.20 43.2e 1a.1 43.1 82.24 a8.b 82.1 34.1d a8.3 3e.4e a8.1 1a.1 3e.a",
   "a8.4 3e.2 64.1f a8.1 17.37 a8.9 17.e a8.2 17.a a8.2 17.4 64.20 97.43 a8.18 97.5 5b.17 a8.a",
   "28.6 a8.2 28.6 a8.2 28.6 a8.9 28.7 a8.1 28.7 a8.1 4b.2b 1a.1 4b.9 2e.1 4b.4 1a.2 a8.4 18.50",
   "5b.2e a8.2 5b.a a8.6 34.2ba4 a8.c 34.17 a8.4 34.31 a8.2104 33.16e a8.2 33.6a a8.26 4b.7 a8.c",
   "5.5 a8.5 38.1a a8.1 38.5 a8.1 38.1 a8.1 38.2 a8.1 38.2 a8.1 38.a 4.1ee 1a.2 4.90 a8.20 4.10",
   "3b.10 1a.a a8.6 3b.e 1f.2 1a.23 a8.1 1a.13 a8.1 1a.4 a8.4 4.5 a8.1 4.87 a8.2 1a.1 a8.1 1a.20",
   "4b.1a 1a.6 4b.1a 1a.b 41.a 1a.1 41.2d 1a.2 34.1f a8.3 34.6 a8.2 34.6 a8.2 34.6 a8.2 34.3",
   "a8.3 1a.7 a8.1 1a.7 a8.a 1a.5 a8.2 4f.c a8.1 4f.1a a8.1 4f.13 a8.1 4f.2 a8.1 4f.f a8.2 4f.e",
   "a8.22 4f.7b a8.5 1a.3 a8.4 1a.2d a8.3 1a.9 2e.4f a8.1 1a.d a8.3 2e.1 a8.2f 1a.2d 3b.1 a8.82",
   "51.1d a8.3 14.31 a8.f 3b.1 1a.1b a8.4 71.24 a8.9 71.3 2c.1b a8.5 73.2b a8.5 a7.1e a8.1 a7.1",
   "74.24 a8.4 74.e a8.2a 20.50 87.30 7b.1e a8.2 7b.a a8.6 7a.24 a8.4 7a.24 a8.4 26.28 a8.8",
   "15.34 a8.b 15.1 aa.b a8.1 aa.f a8.1 aa.7 a8.1 aa.2 a8.1 aa.b a8.1 aa.f a8.1 aa.7 a8.1 aa.2",
   "a8.3 a3.34 a8.c 4e.137 a8.9 4e.16 a8.a 4e.8 a8.18 4b.6 a8.1 4b.2a a8.1 4b.9 a8.45 1d.6 a8.2",
   "1d.1 a8.1 1d.2c a8.1 1d.2 a8.3 1d.1 a8.2 1d.1 3a.16 a8.1 3a.9 7d.20 65.1f a8.8 65.9 a8.30",
   "37.13 a8.1 37.2 a8.5 37.5 80.1c a8.3 80.1 52.1a a8.5 52.1 89.1a a8.26 5e.20 5d.18 a8.4 5d.14",
   "a8.2 5d.2e 44.4 a8.1 44.2 a8.5 44.8 a8.1 44.3 a8.1 44.1d a8.2 44.3 a8.4 44.a a8.7 44.9 a8.7",
   "76.20 72.20 a8.20 57.27 a8.4 57.c a8.9 6.36 a8.3 6.7 3d.16 a8.2 3d.8 3c.13 a8.5 3c.8 81.12",
   "a8.7 81.4 a8.c 81.7 a8.50 77.49 a8.37 70.33 a8.d 70.33 a8.7 70.6 35.28 a8.8 35.a a8.6 29.26",
   "a8.3 29.1d a8.8 29.2 a8.d0 4.1f a8.1 ad.2a a8.1 ad.3 a8.2 ad.2 a8.10 4.6 a8.8 4.9 a8.21 4.6",
   "75.28 a8.8 8c.2a a8.16 78.1a a8.26 19.1c a8.14 27.17 a8.9 f.4e a8.4 f.24 a8.9 f.1 3f.43 a8.a",
   "3f.1 a8.2 8d.19 a8.7 8d.a a8.6 16.35 a8.1 16.12 a8.8 53.27 a8.9 86.60 a8.1 8b.14 a8.b 47.12",
   "a8.1 47.2f a8.3e 63.7 a8.1 63.1 a8.1 63.4 a8.1 63.f a8.1 63.b a8.6 48.3b a8.5 48.a a8.6 2d.4",
   "a8.1 2d.8 a8.2 2d.2 a8.2 2d.16 a8.1 2d.7 a8.1 2d.2 a8.1 2d.5 a8.1 3b.1 2d.9 a8.2 2d.2 a8.2",
   "2d.3 a8.2 2d.1 a8.6 2d.1 a8.5 2d.7 a8.2 2d.7 a8.3 2d.5 a8.b a6.a a8.1 a6.1 a8.2 a6.1 a8.1",
   "a6.26 a8.1 a6.a a8.1 a6.1 a8.2 a6.1 a8.1 a6.4 a8.1 a6.a a8.1 a6.2 a8.8 a6.2 a8.1d 69.5c a8.1",
   "69.5 a8.1e a2.48 a8.8 a2.a a8.a6 88.36 a8.2 88.26 a8.22 60.45 a8.b 60.a a8.6 61.d a8.13",
   "99.3a a8.6 99.a a8.6 64.14 a8.1c 2.1b a8.2 2.f a8.4 2.17 a8.b9 23.3c a8.64 ac.53 a8.c ac.1",
   "22.7 a8.2 22.1 a8.2 22.8 a8.1 22.2 a8.1 22.1e a8.1 22.2 a8.2 22.c a8.9 22.a a8.46 67.8 a8.2",
   "67.2e a8.2 67.b a8.1b af.48 a8.8 8e.53 a8.d 13.10 7e.39 a8.7 21.a a8.56 86.8 a8.58 90.22",
   "a8.e 90.a a8.6 d.9 a8.1 d.2d a8.1 d.e a8.a d.1d a8.3 58.20 a8.2 58.16 a8.1 58.e a8.49 59.7",
   "a8.1 59.2 a8.1 59.2c a8.3 59.1 a8.1 59.2 a8.1 59.9 a8.8 59.a a8.6 30.6 a8.1 30.2 a8.1 30.25",
   "a8.1 30.2 a8.1 30.6 a8.7 30.a a8.6 a4.2c a8.4 a4.a a8.f6 54.19 a8.7 42.11 a8.1 42.29 a8.3",
   "42.1d a8.55 50.1 a8.f 9a.32 a8.d 9a.1 1c.39a a8.66 1c.6f a8.1 1c.5 a8.b 1c.c4 a8.a4c 1e.63",
   "a8.d 25.456 a8.a 25.f9b a8.5 3.247 a8.1ab9 32.3a a8.6c6 8.239 a8.7 62.1f a8.1 62.a a8.4 62.2",
   "9b.4f a8.1 9b.a a8.6 9.1e a8.2 9.6 a8.a 7c.46 a8.a 7c.a a8.1 7c.7 a8.1 7c.15 a8.5 7c.13",
   "a8.1b0 49.3a a8.c6 5a.5b a8.5 c.19 a8.2 c.19 a8.2c 5f.4b a8.4 5f.39 a8.7 5f.11 a8.40 9c.1",
   "6b.1 33.2 45.1 a8.b 33.7 a8.9 9c.1b00 45.1d6 a8.29 45.1 9c.1f a8.61 9c.73 a8.21fd 41.4 a8.1",
   "41.7 a8.1 41.2 a8.1 41.1 39.11f 41.3 a8.f 39.1 a8.1d 39.3 a8.2 41.1 a8.e 41.4 a8.8 6b.18c",
   "a8.904 24.6b a8.5 24.d a8.3 24.9 a8.7 24.a a8.2 24.4 1a.4 a8.f5c 1a.fd a8.3 1a.1b4 a8.6",
   "1a.17 a8.f 1a.11 a8.f 3b.2e a8.2 3b.17 a8.9 1a.74 a8.3c 1a.f6 a8.a 1a.27 a8.2 1a.3e 3b.3",
   "1a.11 3b.8 1a.2 3b.7 1a.1e 3b.4 1a.3d a8.15 2e.46 a8.7a 1a.14 a8.c 1a.14 a8.c 1a.57 a8.9",
   "1a.19 a8.87 1a.55 a8.1 1a.47 a8.1 1a.2 a8.2 1a.1 a8.2 1a.2 a8.2 1a.4 a8.1 1a.c a8.1 1a.1",
   "a8.1 1a.7 a8.1 1a.41 a8.1 1a.4 a8.2 1a.8 a8.1 1a.7 a8.1 1a.1c a8.1 1a.4 a8.1 1a.5 a8.1 1a.1",
   "a8.3 1a.7 a8.1 1a.154 a8.2 1a.124 a8.2 1a.32 8a.28c a8.f 8a.5 a8.1 8a.f a8.450 4b.1f a8.6",
   "4b.6 a8.d5 2b.7 a8.1 2b.11 a8.2 2b.7 a8.1 2b.2 a8.1 2b.5 a8.5 1f.3e a8.21 1f.1 a8.70 6c.2d",
   "a8.3 6c.e a8.2 6c.a a8.4 6c.2 a8.140 a5.1f a8.11 ab.3a a8.5 ab.1 a8.1d0 66.2a a8.d6 6f.2b",
   "a8.4 6f.1 a8.c0 98.1f a8.1 98.16 a8.8 98.2 a8.e0 28.7 a8.1 28.4 a8.1 28.2 a8.1 28.f a8.1",
   "5c.c5 a8.2 5c.10 a8.29 1.4c a8.4 1.a a8.4 1.2 a8.311 1a.44 a8.4c 1a.3d a8.c2 4.4 a8.1 4.1b",
   "a8.1 4.2 a8.1 4.1 a8.2 4.1 a8.1 4.a a8.1 4.4 a8.1 4.1 a8.1 4.1 a8.6 4.1 a8.4 4.1 a8.1 4.1",
   "a8.1 4.1 a8.1 4.3 a8.1 4.2 a8.1 4.1 a8.2 4.1 a8.1 4.1 a8.1 4.1 a8.1 4.1 a8.1 4.1 a8.1 4.2",
   "a8.1 4.1 a8.2 4.4 a8.1 4.7 a8.1 4.4 a8.1 4.4 a8.1 4.1 a8.1 4.a a8.1 4.11 a8.5 4.3 a8.1 4.5",
   "a8.1 4.11 a8.34 4.2 a8.10e 1a.2c a8.4 1a.64 a8.c 1a.f a8.2 1a.f a8.1 1a.f a8.1 1a.25 a8.a",
   "1a.ae a8.38 1a.1a 39.1 1a.2 a8.d 1a.2c a8.4 1a.9 a8.7 1a.2 a8.e 1a.6 a8.9a 1a.3d9 a8.3 1a.11",
   "a8.3 1a.d a8.3 1a.da a8.6 1a.c a8.4 1a.1 a8.f 1a.c a8.4 1a.38 a8.8 1a.a a8.6 1a.28 a8.8",
   "1a.1e a8.2 1a.c a8.4 1a.2 a8.e 1a.9 a8.27 1a.158 a8.8 1a.e a8.2 1a.d a8.3 1a.b a8.3 1a.39",
   "a8.1 1a.1 a8.4 1a.10 a8.2 1a.c a8.4 1a.a a8.7 1a.93 a8.1 1a.67 a8.405 33.a6e0 a8.20 33.111e",
   "a8.2 33.168e a8.2 33.1d31 a8.f 33.26e a8.9a2 33.21e a8.5e2 33.134b a8.5 33.212a a8.acb87",
   "1a.1 a8.1e 1a.60 a8.80 3b.f0 a8.2fe10"]

end XmlSchema.Unicode
