/-!
# Character properties as text

Each table is a row of numbers, in the notation that `CharSet.numbers` reads. Two numbers make a run of code points: how
many are left out before it, and twice the number of those after its first one; one more tells that it takes every
second one. In the case tables a third number gives the distance to the other form, doubled, and with one more where the
form comes before. Where a form has several characters, four numbers give how many code points are left out, and the
characters, with a zero for one that is missing.
-/

namespace GdScribe.CharData

def letter : String := "
`'T&%!RQ!,!&!'N#`!#n0&80*)%a+*#$%&#!(%!$#%!F#aN#cF*d@#`0$!(`6`-V&(O`:E$#b2#!1$)$,&$!2%!Z?aZ-!:`&+$&!'L&!+!%!9R)6'P#,3`
8]`P%!4!)41@&0$$$L#.#!%(%!2!/$#&0$,!*,&$$L#.#$#$#$A(#!5&22#&#L#.#$#*%!4!1$9!-0$$$L#.#$#*%!@$#&1!3%!*%&#(%$#%!!%$%&%88!
V0#&#N#@%!<&$!$$@!&0#&#N#4#*%!A$#$1$32#&#`6$!2!'&*&:,'D%P#2#!$.]`D#!/.]$#%!(#P#%!2#!,!$*#!7(B!`%0#`,=*`Y`:6!2,&(%!%$)&
&:.!3`0#!'!$`:#j&#($.#%!&$`6#($`&#($.#%!&$>#`V#($a.G@2aT$,%sH$B#T'a>%6)D/F0D0:#&1`LE!&!`)aZ)*$`(#!'a4,`!S]$*-`<&TXN+`N
`8!`C`B30X]/$,`<<`,K&,`,$2)`:$&K(#,#$%!'e8`&h0$,$`0$,$0#)!]$`N#.#!%&#.%($,&:'&#.`Z!/!2:`K!&!$4#!%*()!&#6$('*&!3`6`mIfF
((%$.`0#!'!$`T)!2N+.#.#.#.#.#.#.#.h,&;2)*$*&aT(&#a]#('`:#b(3`$R@gBfhL`&wqB`)`@$gZ%@,$6`B2`!$aHI2$b:$a('$#%!(:@#&#(#N?`
L0`H`$,%%!!-X,N;Z)`B>!2*#4,*#`69&#06N%!%`H#!%$$*$%:&$6)&.,$,$,+.#.#`:#<(bR?kk8.N&`FcsVk,$b@H..*'%!2#:#*#%!%!%!bBCcF(f0
4a($`PJ4`^%%+!c*FT(T-`T$`!%,$,$,$&E8#T#F#$#>$<Dc&`+`Nc=Z%`FQ`$/]'`0,]$`,&0#*Ld04`,&`,&`4*`L.6#>#.#$#6#>#.#$`)i6+L,0:,#
`8#2`+,$%!`:#$%!$N,N+`!`'F#$,L,T`,`T($`&!1(#&#ZLZ%ZE0#X=`P,L,F/D`Ta:Y`J/`J/`,dR`8($`4Z,!*LLDPJ=N.`N[$$!/`>BR<`,?!$!*`*
%!.`D0(7%ED#R`:.#%!&#>#4)`BH0$$$L#.#$#*%!4!.*aH`N4(6&@`D6$#!b&`BK(F`D6!^`:/!`-VG.b'`<`Za(A0$!$0#$#P1%`D0$`22%>!,`4)!7!
-`@5!4a:c92#`.3!S]`V.#$#`07!;,#$#`$0!d=Fb+!`5`_L`LbJ3e@`lZb.1`dJaf?r:cvWqZ)`!3aF3]4`D2(AJ'Fj>a(a*a>'!`(:`&$#!>ew@*`j0L
2c|Y(#.#$#hJO&3(*l,`g>bB':%2)4bhTaR#a6#$$!$$$(#8#%!,#a*#($0#.#X#(#*#!%.#j4$R#R#`!#R#`!#R#`!#R#`!#R#0`_N`!g#`>,.2!d7]4`
<t*.#(#$#>#eB^a0)!s&(#V#$#!$%!2#(#%(!&)!$#$#!$-!%$(#.#(#(#%!2#B'&#*#BalJ`pl]Bcq:)f8$ek$0gh&`tMq$x(dmF"

def number : String := "
R4a!$'!$&jI!k74a04b44eV4`]4&,`R4`]4`]4$,`T:`Y4*.`M4`N.)F`S4`)!>4`?!>4`,Hc>4`,4j^HqM4(484d!4a*6aO4(4b$4`<4a04(4p<!%,(4b
4@K!k(`]`4Li@]v'!d'!m<(a44@0#>B4I>ok24gH,aD4H4b4484`<4eP4jl!,eP$`Z1a;4a.$d^`>`'(3$dKVF(e64nL0;.I2`1*8,aJ$$@$`@`&2V$@&`
1*`N0:0K.d@,R4cX`!aH4L(`V.a0]a*4`!4a:4)Hc-4dL4`]4e04`L4`L8f!F`C4kHZbQ4`,4gXJiq%4`<4a04#.l4NmfWH`RRq?`H`h>4f$4wO2a*4l-`
Z#&#(`2`>#>o$:`o=4"

def startMark : String := "bmG$`eC!7!"

def partMark : String := "
R4a'!hNbL9!c-*c;`>#%!%!%`.6R`!(!`K.$,$$#($49!@V`A614C2+!:(#2#&#*M&`!0LP#`&X&#D#.,$$43&Z%!,$$$&+!,$$40!$&Z%!(&$$&%!68%!
-&Z%!.#&#&6$$4,,#&Z%!,$$$&)&,$$44!^*%&#(+!042*Y%!,#&#()$-$$43&Z%!,#&#()$-$$42(Y$#.#&#(+!,$$43&`,!&,#%!.(4$$`#%!..0#4`=
%!2-,$4`$$(4-'&$SH#$'6#`,+!`JH#4.(&&#&$.%(/8#>jM&+2n>(>&?$@$`&`$+!$4C&#6a9!`]8&8,4a*6`!*[4#Z$6(48<#@S*QB-432.&@:$4N<RH
*4(4`]&#J&!(!$&b4a(hE$5!a%:&!%8`t,&a7!`F`$h0,`O$ot;4`+!&4B$`6$cB!%!&!9*&!`9$TD,4(D/6>0;:N(Q<14-!,4Q<.!*$$4C&T%!$$$'$#!
K*'$bZ0#$$4jfJ!k3@2@%$:&b.4G!`D$i'!bP!a?*cW4uQ&#$'(J&&!aO$hC(*4e+$aC6S(a$&W>A6$$,(O6)!O4(&F<#4'$N!.&R<*(#8`88(!aJ8'4((
Y$#.$$$&+!,$$.%*b.D+4&!`7H.4bC.$2=$`8B14`7:*4`9>&4c$>aO4`,,#$$(#%!!.4`^.$.%!>4J.#(*!+6P@eO0#024ZL#<a$,%%!%!,#!*4R*#$#*
*4d?(itO4`<4H*^.;4oW%!`P)(`7!-$iz)$aq;`@$Nh$*%,*0$.@(a>&vG`HgB`R&`H*!0!8*#>uJ.#B$.#$#*c7.+4dZ!`#<wX.`S.'4ar44mpqHf]"

def otherPrintable : String := "
B@,.<(#!<(D2#$#.#%!%!(9!A!fH(.<'.#%!@`[!&!%!'$`V!a5!'$b>,K$$&P%$!$!N$34-%!$`0(`L!+!,!5$#<bV(&$R>A!K!bI$,!a+4#!a!!a#$a(
%!*a!6a&2&!b8!*.34a$!`0!1!,$aON$,,6#'!&`-!Z0#,#:`U,`4$`A!i.2+654`L!i6$N$`4&`-$aG&#(64(6d+!%$aB`(@$a*.#,2!aEB+6a'(^*`$$
`&0-!k;%!$-&/&/&/$3P*>$F#43!%6#>3`&>(#&=$#(#$,%!!(,#'2$&*'(#BK&&u&;67a_8$`$#b>bS,0.`V!a9b(DT#aZ.f(<8'(%R1!'$'&`A$%!`@!
a>@B`,>`!#n]brVa(kh6`RY$c?&`F(,!`Y,*N+$`M$aG(&4](`<$J&#!S$Q!`G:2$a&(9&`J$2$`O!0$a)!jg'!a2BaE,bHDa)!L,248&$P%&#F#(&1a,>
,.<(#!<6a$.#./$c4&&`>%2WT#:%!Q`>bRVF(a%!R!eX!k9292I2`1*8,%!A!a&$$@$`@`&2)2F&?&J!D8`(.:0:0;(..d@,dV`!P!`U4L2N(^.a%.&H`;
$#(a((R$`5(&!/%!$#H`),`Q!e[*,$#!`N!c,N`O&>:`2!a*,c-!aX2`7&aE!`B0`9&#*eX*6F%$iO$b5`H/!qZ*`r!$ghA$a/!`'2&$7.l4Vd=!iz7!$!
arNbT`!g,,`2$`]'&8$)]&a!7a,%!aDH.aV+Rm!!;!A!;!A!;!A!;!A!;!`!p$Y(T0#<#.|U!f-!wI2a8$l'a0`2a!f0$c@`<&b4.>$>#>#`.,dPZZ/`<&
2)$0,aD`aP'@%:%bT.aZ)8&!18&`T*4(`4*]$$`4j4.<$*%*%.+Z%6',,4(0*.+cV#`R"

def decimal : String := "
R4y04a04b44eV4`]4`]4`]4`]4`]4`]4`]4`]4`]4`F4`]4`,4cH4`,4``$4H4d!4a*4aP4(4b$4`<4a04(4rpT4j44H4b4484`<4eP4jw@4vD4`e84lB4
a*4`!4a:4cH4dL4`]4e04`L4`L4f$4`L4kH4c(4`,4iz44`<4a04nkN`H`h>4f$4z$4ar44"

def raisedDigit : String := "a]$'!arM2z6!|'!%,(4o82-2-2`?!,2#!i@2#2#2`af+(pB2g+2``|?6"

def blank : String := "+*0*`J!<!bb5!`iA6?$'!Q!aeJ!"

def upper : String := "
`'T`KN#.CY$1$Q!'%$#%!%!$$(#$#&%$#$#'!%$%!%!$#%!!%!)!$!$!$1$3$!$%!$#[)$#$$%!&#)cS%%!*!(%!$#%!%!@#2E!$&%9'!$%!!$`JRC+Y!/
$`E$`0`q+`0#!'!k$aT`eL`:$&d6a?+`G+0*,,0*0*,-)*0`.(.(.(.*-(c8!&!%&$&$!%*()!&$(,$'!<@5!lHT`_J`DR%!$$)!&#!$!*&#`G*%&!pfCO
5=a1/%`#,'!+&%$%%7!(#*#1!&#!(!'%>!kjYTs7`4a2`,aF6#>#.#$~@`J`sW`$kcR`$mlFT<T<T<%!!$!$$$(#0<T<$#($0#.=$#(#*#!%.=T<T<T<T<
T<T@RCRCRCRCRC!al;`(`c8T(T(T"

def lower : String := "
`GTQ!,!&!FP#0#Y!3!Q$'!$$%$!%$&!$!%&$!$'$%!%$!%%$$$&(!$!$3!5!!$%%^!,$!$$#!&+!a0#`,)$@*`F!M%%!$(4!=`*#$%&#9!(#!$!$$U`D#C
+W$/!`GR`6`q)`:$&kJ,`e42`^e8`'a?!0#`G!0*,,0*0*,,0*0*<$0*0*0**#$(!%&#$*($$*0,&#$a#!/!2:`S!%$%!=!&!&!$$*(&!C@&!m%T``$`D#
!%$#'&%!%!.%`I!!)%&!.`0#!'!peEO5=!$a//!$#`#!2#%$+&%$%!$#5'!'1&%(+>%!$lK`:#:)aHjg*..*pOTs?`4a2`,aE6#>#.#$fA!$&#`8#2t;`J
`s7`$kcR`$ml@T<.#D<T<(#%!,#6<T<T<T<T<T<T<T<T<X>R#,<R#,<R#,<R#,<R#,#!`_N4#H`kM`("

def title : String := "fC!$!$!H!ce/0*0*0.!1!Q!"

def ignorable : String := "
I!(!-!E%`-!&%&!$$g9e8&$&!+$#!c-.b=!'!S`>#%!%!%N!-,,6#!E!,J2!`K0#4#(C%@V`A6]6&!$!:PM&N!)$(0K`XY%&0&!%.,$/!1!]!&(*!6$<!$
$[!&$&$$&%!@$%!-$[!&*#$&!6$8,#!]!$%!&*!)$-$@!`#!.!T!%!Y%!$'&#()$-$?!]!$!(!'$6$>$[$&(*!6$?!`.!)&#!`@!$.-2`H!$2+%!*`0$='
Y<#*#$'6#`,+!`L(#,#$$$;$&&2(/!$$(!1!`D!i*&nP&?$@$@$`&$#.*!$6%!'!O*U!`'$D!`]&&$+!(&bI$$!]%!,#%$0(4$!I!*`!S(R%!(#!'!J2.$
B($$#&Z%!!%%!$]0$$`&,`8&#:#.&!(!%$Ta&/!Db6f;%!$-&/&/&/$.**$,!$!$*S*#4#!/!2:U`&`r1$`W&a'!1!`F`$Q!fS!F(%*'!`C,`C&nv]!sT,
c@!`H(#4#!>(`6$0`(`4!9&`M&%$*!%!&!;$'!aA$<D/!H0;6P&R!$($$3!7$`(,$$$$.!*!E!-!U%!$$$'$#!=!0$'$#!`J*+&a#!$!&!jfV!a=BhC@%!
.@D!$!aS!)!(!-!E%Q!O$`)!7&gC!bP!a?*p+,#`8#2hL&#$'(J&&!aO$hC(e=$aC6S(a%!X>K!$$,&S($$$!&!,!T&F*#0`$!.$V2,($!`E&$%!!(!aJ!
%07$[$%!G.%*b10$&#!9!`:,#!&$#$b](($#$=$`;0$%!!`P%$,#!`K&$(#*c52#$c2$#!&!a:($$&!B4J,$(*!+,$&P:#$eP.#,#!`8L$.#$#$a$,%%!%
!,#!`.$%%dQ$b_E2fv=*^.+(p1!`%B`&$#$hb1(#.#$`vT$#(aq6`@$Nh&&+@$.@(a>&`a^`R&`H*!0!8*#>uJ.#B$.#$#*c7<e*!`#(x&.`S0`nE*mqq;
!@b,a*f]"

def toUpper : String := "
`GT`']!wPLN`'#.`'!!c$#Q%#!fO#'%$1%$O%$'%!!i#!!e@$%%$!%%!%'!%$!b0%!%!!d<%!c6$'%$!%&!%$!%%%%$!%%!%#!`V'!%!!'#!%!!'#!%!!'
#1%!!aI#3%$!%!!'#!%%I%%3%*!%$$k_@#!%&+%!!j~<!!j~6!!j~:!!f#!!eW#$eU#!eO#!eQ!!`p_H%!eU!!`p_@#!eY#!`o~6!!`p_2#!e^!!f%!!`p
_2!!j|(!!`p_,$!f%#!j|4!!f)$!f+)!jzD$!f3#!`p_0!!f3%!`o~:!!f3!!a5!$f1!!a9'!f5,!`o|L!!`o|FaP!aRM%%%!%%&c6P!`3!&`1#B`'!!`%
!2`'!!a+!$a)#!a'!!`Y%!`E!!`S!!3#9%!!aW!!aK!!0!!bW#!b/$!%$!%V`$`'!@aK#C%+W%$/%!!A#`E%S`0`G`q+`:bi2$&bi2kJ,3`e4!e|?!!e|=
!!e|+!$e|'!!e|)!!ezW!!ey%!!`hdBc!!`hfN%!cf*2!`hh>`Xa?%'!`^'`E%!02*,2,02*02*,2-)2*02*$a>!(aV!$b6!$c2!$bN!$c.T$2.!g_-3$2
0$2%!0e!![C@C&!%m%TW``$`D`G#!%%!j~U!!j~O#'%(!%$!%,`I%*%%&!%.`0ga+#!ga+'!ga+peEO%5=%a1/%%`#%,%%$+%&!%&%%!!`F$5%-1%&%%(!
%'%%>!%m6!`_[>aH`ld?jy3T`'s?`4`7a2`,`7aE6`5#>`5#.`5#$`5~Y`Ja+`s7`$`'kcR`$`'pl0`(`+"

def toUpperTexts : String := "
bM`9`9!`OjJ`4!aP`0l!!eYn7kZkSAnCkZkSfTu/uL!boX`.lG!!`:kZ!!`=k]!!`?k]!!`'jL!b#nCl)!#nCl)kR#nCl)kS#nCl)lXKck:n7!!ck;n7!!
ck<n7!!ck=n7!!ck>n7!!ck?n7!!ck@n7!!ckAn7!!ck:n7!!ck;n7!!ck<n7!!ck=n7!!ck>n7!!ck?n7!!ck@n7!!ckAn7!!ckZn7!!ck[n7!!ck]n7!
!ck^n7!!cl!n7!!cl#n7!!cl$n7!!cl%n7!!ckZn7!!ck[n7!!ck]n7!!ck^n7!!cl!n7!!cl#n7!!cl$n7!!cl%n7!!cm!n7!!cm#n7!!cm$n7!!cm%n7
!!cm&n7!!cm'n7!!cm(n7!!cm)n7!!cm!n7!!cm#n7!!cm$n7!!cm%n7!!cm&n7!!cm'n7!!cm(n7!!cm)n7!$cn8n7!!n/n7!!n$n7!#n/lX!!n/lXn7&
n/n7!'cnHn7!!n5n7!!n'n7!#n5lX!!n5lXn7&n5n7!'n7kZkR!n7kZkS$n7lX!!n7kZlX,nCkZkR!nCkZkS!n?l)!#nClX!!nCkZlX,co<n7!!nGn7!!n
-n7!#nGlX!!nGlXn7&nGn7!``c=`,`,!!`,`/!!`,`2!!`,`,`/!`,`,`2!`9`:!!`9`:!.u>u@!!u>u/!!u>u5!!uHu@!!u>u7!"

def toLower : String := "
`'T`&`KN`&#.`&CQ$%'$$1$$O$#!c%!'$%!f!!%$#!eV!!$#$eT!!$$!aH!!eN!!eP!!$#!eT!!eX#!f$!!e]!!$%!f$!!f(#!f*!'$#!f2!!$#!f2$!$#
!f2!!$#$f0!%$#!f4!!$%!$)!&!!$#!&!!$#!&!3$$3$$!&!%$#!b1!!`W!I$#!c7#3$)!j~T!!$#!d=!!j~N$!$#!eA!!a4!!a8!+$cS%$%!$*!bV(!`2
#&`0#!a*#$a(#B`&#2`&E!2*9$'!a#$!$#!1!!$$&c7!@aJ!`$`&RC$+W$#!@!/$$`E$$`0`F`q+`0ga*#!ga*'!ga*k$aH`ld>!,2`eL`:bi3$&bi3d6a
?$+!glU#`E$+03*,3,03*03*,3-)3*03:03*03*03*$3!$a?!!5-(aW!!5-$3!$b7.$3!$bO!!1-$c3!$c/!!5c[!giE%!hh=!!hd;(!ZO@B5!$lHTV`_J
`D`FR!$#!j|)!!cf+!!jzE$'$#!j~7!!j|5!!j~=!!j~;#!$$!$*$k_A!`I$*%$&!$pfCO$5=$a1/$%`#$,%$#!`hfO!+$&!$#!`o~7$%$%5$#!`p_3!!`
p_I!!`p_A!!`p_-!!`p_3#!`o|G!!`o~;!!`o|M!!`_Z!1$#!`G!!`p_1!!`hh?!%$(!$'%$>!$kjYT`&s7`4`6a2`,`6aF6`4#>`4#.`4#$`4~@`Ja*`s
W`$`&kcR`$`&pl.`(`*"

def toLowerTexts : String := "d&`OkY!"

end GdScribe.CharData
