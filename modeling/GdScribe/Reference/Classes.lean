import GdScribe.Text.Packed

/-!
# The class reference

Holds the entries of all built-in classes, in the notation that `ClassTable.ofReference` reads.
-/

namespace GdScribe.Reference

def classes : String := Packed.unpack 336334 "
uFubL!UTlzh3H'zTK_kQiwUo=/tfdK=VizUg$kxLe@#5t9Ab+%f*d@AX$tR9i<.Y;Pq+_GH/S#'&z&sCPZ`<Ln1%P`aQyW`x/b/NqpnLnw<vpyCPu/?[=J
m&)#<PtWQ3ZQ%o`uqY3R;v%#7auUc*svdN/1^BJ:O]WXB4`Rcaz-%V2%W2nse4O&*5g]]o=5y3[`'e-ntEw)eTT06f6X~zLJ8n!+StSMXj%1)ATwGDqt-;
YwXQaK&nNa&HS0tNl+mEPm+/zqiRymC7p2ph2a`M+pd]L/;hZr`*Xf<Cx$uK%_oKlb(hAw43H;CpS<FGr?j>#:x#TS.aMch4l_[ouWs(@a)>z_Fz`s7r9Y
iI2VqgiRgz)0E!;+`@PD04xh7#d#W[]8?145~vjEMBCBNN^=+259q5_BwTJvoj@aw-;(xNoR'%mo,+NRhgmNF[6y%c($4s`cQ,,Q8L'@Tc]y27?k0xxDr_
/?3mXxOUKQ@[lv*6R#Nm?pS='yR(8;Or3EMN%#&Fw^D$sZNF.J88a<=`M2%tNDF#_6dE%uvV*lU(@2]%PH~qVGT$%Uku[KQO(dpwFW^Wk:DqCr7ZlSP-k`
`5D^[i^1vl?`0(Uxh=_!!;c!OEVP$0dT`-j'DNen55OlP7])?qTjf#BbLk(8$$:tIm*cA7$j,pS=HQ%,be2,tq<5a`qMi&1=FTjEB`G-j5tdMhm+FvOcvS
3~K;B2k=;3`Cyz!UL-s(LCT@!f*Q,w(y4PQ@;D|MlQ]QM6jh*>)L)dv32JOB7|F!UjJkiBqGfCucid!Rx(saR[t_]FZp(7=tg(FIA1CE87h^;gcRz)n?~V
3V;q>lzjaFMzY_ij/:I>My9Q5+V%gS2<j(!iVYd4N~Nz>I./U2odY@Oh.)[awcVnS9rABi$t.V=I(UR]tE!T@g,F`5mHuMCUCka'IuMII3qh'dzDJ!AL%k
()/R-C%@0T~NLH<7Nr#F9(1aYj[/ySM9MzR|lXdTGP0/LC3l1%Kk'svm+;Uasl[oE(A_y9smmCvbZ*=|4t)`/9Ol[&JFZR8(033y7Csl<F:FCl/PY|BtX0
.|cCXG3~9hxoBn|lSW`*>GN]o+k=uz-E&F@6j6N(g#iH+f<naZ+og'jf*2DVQu>~2gp)XW8^fmJS5A(WK,+s-kH6*?1nG[.:7?_pT>?,!kUDxLwfe#8^,Q
RX=4J;Xy]V0TLzM_w]wkg<^v:H7FaxxQ2_)d;j'3qczczN!3PGXAHpTL7/C#/_Km6<:V+7x^@(tN%]&'oL~RwAA)tA/HZx%T+N1Ph4LyZRcVvH_%Q_ViW2
]et_!7N/!m8^jH%I/SnIUnl4|L!T#Qpy=#Q'dHM4:rP>IN/~Sg_~k'6VH|.$u7?Ru@p;U'4)]wt4!TV|sx+zbOA=C*=k/ohcmWaEj^sEQ4zP6ODOpnPxlV
p(Pl:<8pc+gynCy!k;Sg345nqn?KT]TZ/U8p22yU)n!Cy>jYV(mae7uNAv=G$J.x]s3aE>I?Bhd-+ar(EiT!wDVDiNhO/NpMUR'<k7)@(?W<;pmumfOo-k
NVoboqLr@y7g`46s1(ddcUxnn8dQKQ>hYe/>wc,V`j/n/v^E'_x.k`z`CmF9=Nj&C@t|OO-H&+B9@cTEYVhM'0NN(Is*5$_'H%ZwfUf`Gzc-8ONG;I%6hZ
M^Yo69GDo,bi/QmJ:htClSCT,a;;9yC9'!Qkro:Y-Lph&cuf:>Mn95;eVD1AwSGtqQ$1gj8vjCW6cP~S]!;9|'w1x7xP*v3R'L9YVasx>??hB2@^A.(Fdq
'Jd5Kq%-B;O5(dU5aw/'!1'mWCV,+=1`w,Sjl=EvpX<(lc#`LXvX9$UX%9Z<ki3WWyt)L+mv>#GtT)3LLsP!|'6B6QDAl2Z52%0y6/BDY]x^x7r@*dcnSR
sCpp~A<;|iwIS@S:>x#eG~s?y[522%ZFPncDK%%~V+NE[B.@+o@.GkT1m0s28m=-BxQWPS6nb&R(4PX=;!^82=/~n#b|+dT'#7YOLAKm;9Tlw?h?BD$?`6
nw%4::jFI(vVVp>21mXJH~+bK?,^N`J]gq)((w5fCCE-!^yPdhhV9'*i..4vSwp~*+llAjZZ>qznRS=6,EY:oj)l[IF9b02xT~&%k3MK6i^-S(Grqh%^T~
Y,T]ZlkvGqmjXV9vjSyQ;E.C!M0NTz+hgu4:h69NCuZB;6eEkbG.rT1$nVF:yLbZPKE80J[Z@guXU%^.=/rYxNFF28jn`Mccu|JC,fslVK5,D:]eM@b|`z
Rat=OH0/64^'$'cL.pv;61Z$~~_W%*h2]4!tBU>N|ICDuTymN^[eBIHkU8vqpY>eruTjiK'aS)WB902QK&H@<E6XhawE[(Z)4T2|*qqSSE)]-_ypB%@@xn
CJo69ZKd(/IS2:yxP?P+!-eazB.huR11Ot@CMKC]4QCIY@z6ja]1Po?9U@hu6|$V~389m]|3[Qe))EwLDjYV%!+[O0(r(woV&M@.<vH-[Cw^9#,$YGj~<8
A^ACWW&;mjI;qiq7lDF3VDp%f8kU64*y0TuJb!=$?CH|DDgVPe0Y,/(#Sd~pyf^-vXb?yvYvkNr_0CibqrR45ov>p8ViVkX,O,DF,H_.]u3q+)EB[:0-r1
OX&oK~fFqH7(60#/a|52Tz;%%#4g*,ReYixL68=$_^e`q]L>gb=$u>!S.$GHreS6cG&]raqj8,dZj7Y5Ue1A?yUs)Kz/5ya>*&h+^D5a_z[scnx)sYt'F<
xHHXqZQ*Y8@aUeoAZ)VL3wa7#USy,/$I?7h0b:RJnS6>5z;-[Y=AY+G1PcJ8i7L<)QFTJ,GB:5Ww3@x$>9&>LH]ehCCuI4]u6lj5Ps2ujF/EDu(oi^l!xn
8NKaRfm;A>ThpUNHK/gVig.&FA3;+DhMs!$~z8(Lb[||rp*[IixVJ$TN'9)izFvn!?b%jEM8]M2zaN|@,?KUAuBxwDy-AjvL-v@Dh[_r4'3459*oKG#L7^
z_^yAL+Whw?Y7Pfx@Ms:KI:,Lc%FUgx?_Ls<52_e[aURRw9Tqu#v]t8/UV:0D(qsFF=UK)Ft)3?R!OE%[|E3K]Y(v.CjFqBCoIFEb:Db0EuC]o|G4/5KV)
M$Z2ki+B,p20ooX7;gHrn92T('`fC??,RszcN#%v0?aY3M(42k7$~bE_~de2L`PllzAI3<6qRZ?'#-0:|`!6w2h6@WeRRYVF?+DEKTi;0OEdFS3)c>r%+z
A(R_0`U|NAzaU|l8&yn!0L`*~i(jk:qWadI&Lh39un$_+,^rLO,Bi20N<g>!WL0U3*o<3t]^u.,|~qQ']O|2<x6rc%rlwN!Gf0ZeRFlXaTQ<35Ztg]moe-
q_!Xz/-ef7H;SA1*k9i:psR2(0i;G<L@K94363g6|p7=ecA[h6E%stWGV'pj!aJfchT]J-A5XIvC(/~wV_u>RpH;cb<;f_Yy~gx$!$;M)zkPhl585_ko39
kr-1R`0w$Dnf<$E:Lw~4g#rxYW38_B_(~UpB%tX7]M74*L1`Hn2rLTb(z$QQgy,]dxc/YrpXmGbT$3hI?R~dx`=&rY+|`>'gVCY)&4WyV!r6Q'vnl]fuYf
u]oPN*ZqABh8_B|.TN(;Z-hAo;U,%[yBvAl*[c1@be'32%*6gb+uriSa<+5&L.w-X%KkF+gpFV|Xj!X^rT['`oNTvTUR/S&Y4K,+,;HU,U$]/ipy3ji,bm
SGOMnp?;'/iA>yU51VKZXs`FMCdQ&:QE^;(6t[R#?P^o8a_wSQ*@kXEyJBKuh]$amUXvh>$v'gbSJa41`l$J_'nU1/;>lXW'EW`_,78is*AQ5(v'r5Apda
)&~NC(Af,U&_p=:.`kIi%r,XlZx9L<~8qNWB@loQ+sBtMCw'5xpF7jup=$b>[@X1<nE~E,O)?|J@w-[xcmj6kzq7o+vN+[2:[@$_oLs8VYimF[9GdxGRPw
S]+L/OP;#R-<QfleMAu7$`Z,yT~(X2@n>5Uy8OH7m.N<p)'tb);)%H2WkDY^6%m5Q($@]$`GTC<J26:@poJXD>(jG)DMR;PJf*<:7MDg*XnYF(*g'8L.in
;>g-4D;46=M=E8t]_`o;wV$pqo67+Wv=c8N*')zl*cN6yk1d>@kk`Frf@gf-Q6q(X4]cS*nVb_&XJ&Snb@(LFN+`-8,jxeM=xt(EH2noO|7p@G:da.MV^S
qL=8Rw($%d)ydMv+-AQD=mv>~_?oXF`f87&d4+YoC%3rX]8Q:ceL:/qBR7QJ&'*UZ%J!3aXfAK1cwnY|G[ZId1_%$B]]QJ!t?A$Hg'hwoj2_=+r@/;T3W,
Y/KIAnI9<:&Ie2x8*@f8[4o6*</#P`)]Mh$[VFU#Tays%cOz/8J`tNIS@g:rHUMd.AgfdJH,FqPR&T<83_wEZ-,gtlSmfu%|yMzM@n<>;P^GM/:-!W+Q4:
fbaKX?>K`hvaTBldGjhH$REZbLl&=dA;,AawD>XO&1g'lI^k44Bv)j'*/c:!1?8M^N@v8rD.I$-'z3~HD)7#.Oi^6xnbX$U(#u%E]bCRbs#?>iXOI`pKl!
0W8824Z'yos@]UwnKWPHDvPI*~hnVWW*zRb(AI;B/UnCE)DEN+@nsuUd#aKn=')3W<1C4KpV&N4NW0jh<Tiu@RsPCB`?SEJDs(2UhS@sJP:/!5h-U8`_CV
cWsIa<y(VhHZcFc<Epwe(>whJGq+FPZIjn*mCU82Y4i##[/js!zjAd&]>XYAc3&uY1C5k?n%x@Nx?O7=L,^]OnikOZ>%IIRz4LOZDjs[sVF]ar%s|7_$l)
Ls`#|T&(peDJP!.M$,)2TR8'#2-<L_P31X/t9C3qM3=|ULr2YK+@];~s!wKq;-/'ByE,$nTObv=qUG?kMM|MD<FX)WRrwE%[eYS!ii>~d4J6;SO]&xjhIY
SFC*.i7^_#=AJR[egHv/OU`'3^y?4'pc?zHH~p)@oeG-@dSZ,bcoGm&BD32|uMf!4~=E/korXCTfi9i!ArR#(XL/*!B=WRoDwW1vriPZno-1R)57YK.%$i
O_F0/&=IDPi`HOw4!|:=t[MqXZBVP%mv.urlwYm_DISAJnpkU0EAV-8]SojQ[eYGks$dEWeD*s@r>!QFFKC1,S)m&fB|_wW+LGuCc~_I5ojpu`|Eq%Y|b,
V!PK3RC7*6w%=/Yca1UZ!2g/~?wV40.e:hG*U%DR57vK03<B$H8)58DHwOe=r[9L,&/t'%/.MN6=0>A9q7kd@6w^%94sp7GR3zUU8Oph^<LFJZ36|S@_dR
-y[G2L(<!>AK[Ln9;8.MJr=gn-~S.FAEVH's?ZsQ,m)afj6Ej^jT.=sid^`spxBchZL8LL0;7TRXN!n2+Md~g5:_n]IPYd|w1BNRuHaE0O:$Z$r6mocq*:
%!uxO|sG0qd4Rvd?]CHI;e!wIu#_N-b'l9(QYrhae~V;Pmgaxy?cYs~]o3(B;](Gqg=Lq1snbXaws&6IvUJ@7%XWVwpP[y*?GRyJx(DjRpOn8n/,||/'-f
5ha77bTb%YxH+vm'RjA|0xSyG-,-miq~`B10wPl88aqPMzdguN[)c)Z/j0(zgz2'l7VP-TJ$;(tv?7-GIU8I,udw2l>>r[h`zCEFetC=$El:V[gDMKK<;N
bkLn8k&S,rY(o3$zHDA>K(>aszIGp3S0`]M^m/e>eo>E!p@q.+v`'S=ta/_*Yv|TK1[''JQB&|ppDb]bY*Sq2eia&fFXmJ8dv`?p<)Se[(1RvK5U;?Mp-G
!dN=B!p#iA,n||M_y'v64?!nNm[.&5<e*t!)pC8[@w5b_;Z,;j`E7qjiQ/p$OOYy617D'xHg=K+<^sK#X1GC_hK'$%QZ2M/BsbJU;E5BP|6IN&xp-jWemg
OA_`<[7Ru?3^4G*RTdUL2~DVdJG[2Kgr>OjUb1rp/#!VA`:kuV50*Bntaf8xj~+J#*LEOj]Uy0TAh#hAw]k8=J;X!c8MmXBKSRG;0z1P`1c]'/BFZk+i,I
m4^ZQsX$i_#qc.[4`3zU:tcAPPX;)9k4/YZ-=5d0TTA:NhCdY<(I!L!.^M4zIA+IKGY2~Hfo$?j3pe6W$iZ#&5rZ5,*B;XKX=o]>V7I3[sZD~#i54Y.0Iy
2i0ydQDc/TfLa@/vXm_VY[w+bI*gx%VDhy:|[wSWqN=s#:ogKWJ]TZn):><2L,0Lg^]j9u|A.6~Lu+GM!&l3h)n|#ADq_#Ulc6`i;'5zi48PB[O4/GBl)^
&H!Id.kM1H4c).'vdpJde=PVp^au&3%(hr_'ym*&Am~0&J8l-^&.$d!ZHkT9eRh@g%sy3rjFr,aSi`Vy#Dw]^k`mxYQZbL@3+/>hd`cK.hPOvy[!$1:ZI5
0JPGw@y83!G/qBf~kGs84&L>).c9ceS-9K2zvRs)~BZA5?'id2!.KRH3Rac=zUI/s/a43F2s`^'?*.>@Ah@qN?It!g$HIR:Y11RM'44I,`w1L)s+Fl`@XY
z^zX6;M8tv(co0n0S9A`aJ^.etqf(^?&D8Yfh^hZH-$R.YOnIvB:gl[tlp#sw4!mB)&9_*n?Si^=Iz9?+Ppr&GsWmq61bxdYPmF4Mwi5p(RlKRkft2>KWe
n|@[|/'W>rM*xt)>|1+LDxdLxbnqUva99S%)u?SixhcT~3m%czuh_[x;&g+-RASsgD|1mRZF/2YmA|ny]In_coFE7]?hVv6![;/)L2OX2v?w'8#l;zk^[g
Y/UO>@>]*-gdnuAjL[-%I8q`%K23d%)V:relQ/esUIvXV6wu'cb@I8Ao9usW+_[rLs#s'5jgscy82G=7HE)EVA_As8Z?ys5b*Ksh=4HUVgk>PcfOEDSSBC
hJ]>H|_6:B0z6aajFUupPaT],,yMv$2]YUXtUn)rCDdie<L&[HE(ZJ@f!^eI:QVVs^GY<.]hu<zo6Z50.NLC<@@NY9biaUgMzhQ4!h6BOIH-DKa-$,-,sq
eL2M>il?|c#vGeRy)`xUcmJsse(:FZ~GU30?#.(@?bD>mOlN:in?1qvL/*f!7(0l^-[v]'TdUr6ZPb,+vn;X@c9r^R`8=Je8[.<PLakffa%[+Qi<~~b.JP
gS<[B')MS6)]U5ge][P;*lb#]'/C0`pB!!aeQT0B_GPEWFv?OI'0PkcB/V#cvmTH*8l>@P`x-d`i?u)iT/LoqNP`N`Vch|soy%O+Fac@8Cjx?b,t$@w@%t
m&A3!us1ST/SI$=lCdk7gBD_?%<FC)652RqM^|irFs<:69NB7ch(q.&h8tq<5<0mf$=xJKs)+JQDFzbr[KG!SR_h2BWP|@-0EI=!qb]YD5&OJNDeuU3mgn
M`,zbP|9~WPHvWz$IIXY+#@~(-':AFfr`QTPw4V-(QVKj>`Tp7y_FVGu'McYVyAZ(2jvEg]tpN.eHRl704%lBl5R&McH>Bx96Ht;1^*]+~/R/$TN:m1*v$
'~/KoBf:?'#;!vjV.(iRbJhc;uOA0_CjuJNW=$)n@vso&Csr&yCc-p7k(VI~O|yb[5ypq_5T@?>)z|N'U@Npmm33?TZn)A:,OtAXsZmMA&vuH<sXEmuCyN
[[DgK^^Wc6$q&`:PJ|&JOG)>U6Q6[=E(A?<yieG11g7.turZx!a6,:UuOd2pNAcTwGT0z'xV09,,P8[1bv?b!N|d;7Q~pXyntsaDa(=Jqn#o-:hjPGx;nb
_?Hgc)=&CdSzPzLM$QvGNhi7d9h$s`;IhqaHueAm~v0'R?#'huFj#m#6'r>e3;stC^t<8oF8n;n9/(D^;eEt-g6f|GrK1](-aK9d';mC]tZRT^Ho<,rq+I
UFH&7VYdy5O&aBx3b(PsK)%.oT8IKEpcI/BB)?,&+8mQW$e`g^p>O/DgecXCr1_*Bcah.VVQUn5Q6rt0EZ<=ms>Yb@Cu=-Oc&M8)czpCW%<O%!+^I+|&bp
Vt>(,k*yv7!`I$agrr`%$.-H2B7XT`NG9]),G9$SfoCbm29LY))_z&]sw.O'pq=[!_.)z@o%NA<oMbYb'II0]iqA75Te,6)'PT@wX*hTQsy&rrDsF:MS6`
o_#/-n6rn+tAFb/hKCK(r[0>3&lY>eKY85H4Jcm]]%[&>|$hCvUcg(U4f8Yk^FZwR-!7qPE'=NIepLbY;D37&t|)n.nWJUjq3exMl.6$6*e%V(=7q=#npf
>b9(<:>*tc-cb;Kc%/FDK9l+bl%.g~E1m?''>`,&h]B9/+|1IWDo3%c?Pw8S::0:ZtzHI~4$Go2693UdxnK.17X_6<q`F=y|k/b-79P5d^S|eLS2>vamW8
^EC/aYv.*uB`ZT=9aQm$2)sW#levoFR=:Y[xIO15YI=q4nmJP^CWtLH8XR!Z]*9s=C4zi+!p$k41;A[R$njHVq#<:tC5F_eTh[=d'dg7r(Uy<NVj2,q5HP
4M[a#x8&.2)khccB4^,(-frti1#-(IQv4l!)beUliDr6cq]hOk^oF%`Hd!xGC%.E7swkBUpa60^8ea~7pU95^Dv]uYbXtf*U(J&R&)XCakC<|yuV$RB8$,
SLq9lS=pvltU_T4V@fewR,Yh[_WDvBv(.0&<*AuRy3+FQ`K>?7~$21/G`4*.k?s|i5r,R2,ij9sGk&C$)-kK-BKah@QY8?Sbtkq3x<?c_O3=!YJ]s;c3ip
FQJT7$hMQB88O>NO7UzlAJ+>A~P)3PX9cLV>W9-Tq-)5bnj=sk|zhy4$:<Ix]Yspoo5NGr`IOPkuH4(PXHM]!f4pBe7.,h1'XH+sS_%UleU)Q8u%JWOU8,
?4j/f'1+6jG:=NEZ=xh)h'!E-grhVY-VHnUqOegz'e_Ht;KDWvaC-xU4|$Qd=CurADZ$f5~kM^zSZtT&bC.=t1PWH8_fR'1YnCC748?gtl_knS[U5~`v4A
:Sb;*OT2fg3|<^.z~~86hs,!y|P:#KvK@lHu^km]~@H6_#L%/s)J^)=`+,r<i*NJNW<G8nBL,T.r_kN&Cw.R|V6QO^Xv=gF'o(T,X~o+~gKFaQu>n$*h~$
@YsLYU%C1r4yid,bfj=lWeT@nl))?1WzYuJ0M8_#=9RJ^17OLa`1skEg.Dgzx@Z9dp`<|6#_?-lbH.CiQkg-QMrv;6Cu2xB:#XCpuHke@&S5Y^+s'rl9d[
>>Inawz]xmqJ]A1r.sf]y5kH8rb)|5I4'39tftQM9VrDacWI,6+]4A;'*_a=.I9Y2X5;!O~b&E<_>=_1*P5mux717Ca^bv)C50uhXAGPozDSf99?0##hKd
R9gO-'m?#~I!`cPyw5De,Bn8)Rj=W9(>MJ*sGWBp)KhB50aZx$tCLtPcB'S]S)<M./bKmjV5Y(t5.i+tB8H@Fa%/WxaOI35SLtWd8g</[AWAx128N~s~&W
$2vNrbW5z&1fkD@Mky=2PYYp8o8qC~|[.[.SyB;<*kVrMvjeY6+Zz@7)C6m`h9qxw_Fgq28JkbQ/|rgSt>/&]e)~CI_W~#ju@P_-_w<Nv3`%Ee./LrF.f:
_b*KjU2)T*^*xK[J2`GYUl>f<pr1?!.'h5YQL-)X$83s)&D)blixKT]pyQZl=/ZD,H|Ko6W>I`Clm[Ki7Kfpyt`=6~l2sXYtY<FpY|M3f+OD>?3nc+SWQ,
z[WEWlUgv2@S[:.8~7L^`zu%4g~Ss+3kY-;M(u#IiaZ]jbQ<c[x+1m_le8C9T|91+-IuL+l&.'V](Hu'%|eFY[0%,U)YJr7'a(wG/mD1$:C%51LOC1RbM;
PU0oUZZw5M>|1-zVY]5g,cq,B,uaaEC,]aHmzh~^OY;-A<k=W+Cs#xUCLINw#AP&z?E=7qLr>Z>|-M-6yp6nk4|@>)WGR;)~Y;?!Dge'$E6X5-U5H.%c%s
W]e-yVqov$cmvv^Vjk1*fJgAJhIl*0B*[vr7QALs>Ye1)Zy;'O9|K8$&a|kEHa=5Ty7LO-TB#P515+I+=3BE)ZRoF?Tb<D2JT-pt:Pu(nA/iN9Y1E%Y!FX
5m_985&=ofL^t.cvtCObF>XLy7AW1qjkI*/<>onD!sNpQuoL39.XX@3B?3,lu+ZW>5k[#,Q*K)`C8|.!NtS.:nCxW#SY#UXWguZoiXtU`JSg)`R?vG`Ln-
/4k<j|[WC]:WaY/Qw_&'~o6iGWg:-Mru.4ZE.,)p+8E$FnbhYplVB7d[T5t6r0^RKN8vCc2UdOG]PczvAI8B&;5ducNHZ(UM0Z[.OX3?&*d,?4#Z72DM`V
ns-?p0QtDx:GYRa:x;vaI?-n.e|nod<oO=CkAtvmU=#5bXF:?En55hZ_S]Ki/OJL]L.4x|izPI)Xj2jQDHo=Z,,CC;Zwr%S2s&RNr|EWa9aVLhPZAJKa[.
*mz[>H=xMh<aE(Fe3OR0LXUFhfI?!?8u`<-bxbKjg<j#@%[:f1_bAd611qX!U5J9_<EFAu'#ccB0X)qw8va|KV72ficcr.TcRvK%X-l)TpysCZir|.Afi9
]GVx6wK;m|x#vsC$.#)4guzkE6~D50#S[2&Uu?Xr:>vHhUW4:_RR5Ao2#F=rL';oc#B^.b>4QBe4wjqSF_^P(XKL-?ug$^4lk4yKTmi'x7hG<BU`@w2w=8
%Kr,VI,pL_6<t*#EPZ4#s:SRL5mPq!P^oo6!Af9PZT~s=t*N?TSgb?3U$x;'uU:uwyIQI3@`B5w`pe|~9BR]wE'Prh^N)/Lm*E'(5<z&.<LrV_~8~,yW8(
g#,Wj<Fh[QbP#A:GkMy~mKU>:+^mSN:F-UR+T?qj!rL6Emej]Ks>6eF^XS6Q(SCD|a++4Be^YZ3Uh1RkVKj<4G5M8=^eG'!UrGQcF^c%AOuBDA;F;z6,+2
udK+N[fQ'CRK?-hkrQPZ,x#X[x=rte>N>`HZ$l+o.$cMQUR/j>8zP:`k=0o8v9#Ju`x8+OLk:ZOm9/3@&25D(0C+:mA'w3%*t(r@_D;yPK`Av2|d^Bb]E4
ih+a%,fn=[Z7#m'VMv_SRg_pf2ZQh$jBK)Uy%OPedXV4?7J]xp<9x]X-*8]MhePm=H:af|Lu+JgJr=38(-@0zJ|YAlX#Z@gB_pBB3%!Eksnu=Oq5fsJ#UU
;&s:tWM974f1_L1Wxre@Ct@Egpv_z)yN?l.3B>@33x,CZ$4fmyk:w#k>16mhVwT<~1byUCV.lI@L~u.id>Y^$c^0;|nu(YQErXNs=L&Sl<$RV9;)bp!g!X
:J^b]/IH=iiLhLS(=Fq7EH3M=A8%:!:c!kbGevYgG_fY(#*@&MEsoXRElYDW`T9_x@AuT(af<G:+n4'AEId6lrf|uq*4@I(vO.xhHLzwO]~K;yYF.K9<g(
aVf!s3lUo?_~?gd*^S.^!QKLdj5%CK]]ywc9]I1bqA3!4O0N8JnZ,Idnp_mT[@td(tt2RfRJ%Eh#,$C%)-3`IxT'hXK$vJjqjMvQ+5ZB2^7t&)rf>B0okV
GrR4NH@s$y0|^mmQ5t/6&QjBkF+`7RCqF1I%5~i6B`D4(P6__2kuaVv%;96[FpWR]o8$gwJu`I=Qf?jrVFr5P^zrb`8q4V[^,P<7b.yX0OLtVI9Jg6Sy3g
B$UNwdO@DUtOsNM,nz|'q4z(ao.(`&TC=)s:7D#XkuE4@G?E?;i~N<i(vVK,a*>_XbPWpd>TvER/ySX<qeec)l@PE+XszyvDPKZ4z.=7,q7,oE8_=Gi*z!
d'(Y*7^AM+>gsb:tI#|&p=Adlt~zPaQk$;H/`em`^H>v:QK*xKmi=hWIRT=E]&x50W8]tkuC|(q6(8krvMbX|Ne>.2bJl,nQ>H.V0YTwI.z'A>!~W|Ffv=
bIss<nvlH3'EDgJMiYf&Qvz2z.Rr6`VdL2X<cI6frew1yeZH2Jj+3s):a9eb_Uv6VbOR**z!cyO)a*OtGFp4D3d#p:Y0X>$:>sHg|_m5tCW!,9C<]HF,K?
7QFAV&6|.~Q2D|d&VX(YGlpK1IHgdV|I4Ruk$eDn(B)5bJ!+X9U)k)8&`mqP`jftlp/Ux@5/<PA#F~:M-+vEXR=#2&dUJIH9J.)Ci_Ecg(u=1m`nnplm|o
[J0Ik]YTwP1Gi>Z6LLTwd>`n&fjPxVoVPBO[9L$a,IVeV*H=75c7-~43/mF,`|M(>hld!xm4DatS/%(f%^c*S>RG0p-f*2SCD;Lw,#Ap_>$`&5RpRq[y'm
AW&w(In.N=wF5xBi-UB_M$2rOo*Y!yX#TVW`h&0[27TV7ZdC%NCb_v8swBVy*?mjLF@$2!.P6H1d!)Mwe?3rDnBlRkGE.NH(bbw?ek*z-c9Jt^lea=C@_6
l!IcCGyQ`?(bf/lBbgHL5c-1uKt8)vLV1R+1k+zhT*g2etDGe&>R_]y]ERLl|;<4jyxbY*w>v-s+_kD2Tn[igq?Sw^4xU^;[x2(?d+R[]]8CCf7RmKdidb
l(nw26#m=$O~$Qs==>@3yvJjcMKZhIxR^Y3>=Yr3r-]6lhP9k1qu)w$!UW9O2yJVYC'JYh.1=mD!k=<wVN|98pu,3'&^@p0wJKHEj*g:0N%!^GvDBUTYRE
]_ioTa8DHC1n:w4AKQ+UF7+%CzkYvg9s|Cco9s9f!0)Whk1UsAMH|Ra7VJ$~0O>`=U-qU73V#jz3#+^~:L_VOA+DXUF$=OSYx>x4|O!n'xi'DLV)73dT5!
uRazVx)'XQz<J69O_PTu:0UDOp3zW/qNh2^(3)J(87q6V,GS|N4un~SED;3|8n|~gWUZ(*#?5&i8dI>osKWz4PUztc0)dTO:^sDNp^r9sD._~+S6F(-!ji
Mx)>M2mnqOUd+wq0Rm!GzLP$NA4>.tnfw^4js<>HyLNu<8Z/~HI0.c%HMHxfDu5DKNRvUrO-_>fkhZtx2%J3~`OhT!y%!smOc^>K7+v|TQdXNalY/~MlIY
NU=]Z^QWzV~w1@J|L8qBI_B04pftmrCLjOoF,Xm$8?2*](PDZNGW.O9mVLSAPbv^8F5T:|FxMX/&?BOj~.mmP@bY7[h)~Mo1C5eh3uhc%2(#gi+j)3*9G(
=51vAXud$aeNf6l,Ci;LAa^%B@J^5m[wUWFs(T@xn|i_=^UC'0o4r=wD./V)Y]Mf.l)RRiQpulum$@d#$Iu$>&&1,FTLD;UV4]jM1;<^!6*$t1Sdsh#Cz!
;QwZ@@pH?rHP~cMy-9MzW7J#DMW~5l(-sR+MDqA:+)n-IbfI@`1D`dV9pr0;!`N,.B_3K5zn75$qXU6CgN-'@`*,P]rXQjLF!Nc>2IdtZ3onIZO[0zdAvm
04s@M1%%GlH`s8<YwQIZ^%Sn2j,Tfw]Bq=YokGW!nc<fZSCE`T!5'[mOl;79`tTMA4VrC-+)#ZguqJ)m>RE7(Is=D5g9]D,Og7'=Q^2@':R=VamM5r7Yw7
WvfQxQfP*G>7Wj0SM)=)r<m#-IllS*&Jzdtdmn:t**|%8e:_il$X[sQIx@cQ1A[$IK/wB+tQn2V]H9NB~+1wrvh_StzJ*Gn6e;GOKS+6=]OIfsOO(EZ#bv
ncGq|o.K|,E_xS<2ggt>0(mSX0SD%#Bi~HT?OU>EX-=E,W&b.`i?+:MUPTZq<qB?EtsB*gE<9FJev5dFi?qg_e+xWYpd<,P':85<CZd:x.!nJbgu:9:q1i
R4UQw(JW8N9f0;Gw6Q[._ASm2oOeeML_AWlK8]O87t5srwANrm6RV>uS;X*0:^+1;`?n:ne/Y.xr2<]^-Ktwg4Yts<0C2_)rqtX[ZN~:KZzTN@8@5uC]Ac
:?Iw|CPd2r]#ZO1W*ElS3t4Jh+wP3l3ZiIM87Dm@_.~txFgv*0Q2h*FqCnykvU%vndub?=7<Ce'VzU8%=rMxe.&?St/@nTEU^fnkVkd=dt?5$:=-<kYv'C
W&M1;XOSo%&zF/w'!?(8`cl:3OG[.9hUdYwS``uqI<)-WWFEJE>*kQcGN^n`6adWm`n'G?K]?j%!m,`i@skK4z;X$)=X/,tDFB^NW/aVJh%Jd.rPnA-P,+
~2o:ape/jJ7H%:SEW<>7,7vX6*XDafi@c16uW>Uz-eB&V|%.e'wB3G6qM3O?k5d;E1dL%0|Ii6+A88S6O(Uoh^/U6TN!#51)En@J,qU:oy)YQfD5b3^9d1
zL:vf,W!=8W?AojFni4&`:ayF_ZN:C_G!O?X|4N<9!mj8Psa&Apx/fr1ghgIk=X4%aW@NcRNZ+;h3zKb7wX&#@zlw[M#-=vK1Sy:^B;q.UH)uzUP)nWefi
|.kdc=fWBVZd&9ixQ0by1v.Ndw@Z7p4D8fxlI:-&z.Gd1#)D]lf$Q3OL.&.W3ha]+PVslwBqY-dK[yC[Ona*T>qP(S|qn7V[BX7)#v#I0wC|J(^,OWr)`/
62mC&L9$4If-e9kgw_ed2of&`q#Edj`SF:uwK8dhb)O(y$S.D<$lI:E.|JE$OR>+0Q*czj;+Iet@l*oSeQ`XIeTST0`,'!fFhf^;Y?1W4ZNoq>Fn2SR<xQ
G$625/~xegIMS`$ck|yR4pAudOp,q!Sr;$qaiu*j,HfFz<`HrLCBsQMw?apZAZclg^T1[y:=Mu?sBs>%|2H@+<t4WMW[`h@>HcWpfwT8y<FNt[e6.C7mN,
YD?J1#3JZ<Vq|*:h_y5]bXJa+'#Yz_Ms>pdRej&ZspH+O%V?Q5`C>b@0ssKjNM=tE8>4_kI=gA|lUZ=|wG~<AGN9^f'#MbGbc5Xeee/gWd8bh4kkAc2,yJ
d,h],-uhDsy'H^n;ZMgw>iHgaIZ~.y8*7)kW8<c5*kl`-eS?IH:~J?04Gn]cL-rz:(W4cJ`PERv*hg-3tFny@#Sq=dkFSu%NO,L#>:Az`k(oq@.][@p[Ff
E_a^tXUJ4$*J;+4;?%1So8?A)g_XZ[j-b[0-zAh3:;Y>n%Hh5aFtLYdS%$s~/H|2JQJ9cVh,/`1pl|slNx^<;ktQ079/>NV[.#nk7C;h8DG<SQ=KC&0>;5
?C1`u=@]z]9s1L%P<?O>44A)@f25AR!D:G7rZ(%HlUy9Pbd9D>=NQ|BOBcAsBdd<1wx<&0%|'W39tbkE-g6.[+[%C|7m9[0U8A.`li5k|R7lS;YA/E6VQo
K)zRsF+^tTIgxW@[rjNam3$SZkt-=x6!d<pFP&iC]9_8sPuPc_QW]>j8#J%&[LcISBd%&CP.s'X%TJm<kSGFYCBW|#YXAj.fLT6~1T)plir@:v4+y?v.CL
$AD1r!Xy;)&f(uhEfGs|:E'z?^vOS]/@;WV=WBWJ8k6fr%uD[K!!|h9$JtU*FM<73[_5X7Xe(='x:>BAQxB=E&qGPb#qiA6%XpYS.2WBYV^@OPP!c;GWgb
1S)^kLJv?va]*:hi$a@G*<,)jR5o!34]Q^<#M6u&]~[l(j(6~Nqz=R=TM5bT%Bn-nfvYQPjr'`YA^XQsdtDFWOFMqLEN1NPPJqponQ-F(_3v)]('7.GWUe
V9YffT.Ln~uS9.@Q6ZhjCaINBVPEgk@K%/?-93pCrMl`,=pKnh)e,QIZEDRf<oc>xCl,G6z7B:Mtlf_670GW/V.j/o#@6TIhV3RD%TET]Sf62v9FDNyF_<
akI5(+~aG(U|dui#KBcwOoe>S77nU~h]$o/:,mQ@0ds'_)peb<ZMQuxeqW_Z%Ggi*G?v<(9_+dI|4,>Rvw&[f7l#G_P0U6?%ZGse0)eyuFXN,Oew:@>XUU
Cehec[AMvSZ+!NG5'~&ug%VB2[@P[x,eL>3C;3!P^o,wrGzU_7PkHP&515az/]G6(U.P$r3-r872tJ6>%:-%zx(A^A_<;C-?A#Uz4`cl.qZj)vkHiJgGB4
NFnxcq9aian>hM$O|!$J6&ABF6mf:Sl1Nj2eC@x>Hc.9$Y+m=;nc))lVxF~k8'!u?utJ9dF$:ld`zY#:.$uhBX|kfZ^nf1pn;3oApL-d-dq`(@u5SW/`,>
LWjfb:Qn2NRK?l8`s?.R#(3W6@fzN4IAU[Sv*fcr+[;NL!pA7ft:jA)o[@8UJZ7&dr[,gxt_e(93?PGW<8<]lh=/blAV#z$~4j8Qm_D?2%~fZrr~=)CUm8
d,G88q8iv=kle??;l.V;@&m=XQ4Qr-4;J$~c'|4bF`DG.8|V6c=j:.ZC04@^!7BqlRe0[~>f:?#1.E3Yj6PmcpXKPatOUs_C8d&cTeT!tuc<5OtDgC-R,j
92R@*4V~[vy/ei0'c,';=%IwaIWwp2vo@mBP3SsS3+YE@D,NA/=h|<'EOA.1JUyb>/DFrQuK-$D!^/S%c1TE+]I9H!$qIc3f($Altf*NS9|G7(N5D'<WcL
~cb!6:8X|_[dsRro0^DFo``1CtfRHUvJ8sg%c]nF#b<'H?Et<;owaY+ukw#2LY??Le&xZ~ej0nsT3XIU|s74w5?0-IaWDKZiYl'0Wfny#K_ljKc(wJ$gjS
?atRES!?A9.B~5Jq%$F$G2%IBcr8rTV4Jw3W`eWwJ7SP||(;lPJd7<3~c(v=xQb;X@YCWAaRIIrAv2l2:l=p7D2p((69;gbc`I)MKe'jWMXF_*(BeI(l,A
zX_Xf=H:#&XT=1e$H(mVZ.r]Nk6l1AYa'@`G0~=1mu$beYoxGot1t.,Lr>_P8<Q>EVmK)Efa7dW$=acs1+Nz@(:X~@>?M=X>sWh>ocQ9G*X_Gr8>xF%(Pg
XFgW;1BbBh'Vqo9O:MLs6+gEgy?X_M5,bzeq+N#~`:bQl%L]$n$wxQ!8TB*%@pqxnUZ68bW/1o&sCiVtv^fM&H;MjGnq<)!-UBt~hVw#@*x7(J~VfvnQ8F
0$<:(Pw$O-W1GIwJG3B[id3+Q$/z&=0*50|;#b8w7r~4ZqQEURdsJqFsfk($X+-/1lcKy4u3g:@`4`J4x$Nv&=XOCc*;lQxpAbJrVd*A_iqxe~[,@olAhn
TX5uIem+lL[DD]`b5YM~1?:E^]#RwQ,re+5&$yMtiY_5)b,.=CSuh>cl;#T9i5BJ9e9+0y_=.EG!u2DWf6=?~O1=S-II|t'H3X<R665D0x@BUY1!'i;hO^
9bMg.WJ]KAo9t|q'B,/_av2=|-DNdD6@IVqb%xC:FXgxS=#g8Gk-d9!(YGY!PSW/t|mI^@p<8PKE43u_a9(XuR<vGBUGP_MMjHotq1~&2%PGm(D^&(0SAY
`i,q_;ybnpf[&3niiIX3fa)~uIgK_oBpqrNR8o@GUs%nf0<]<EA$Jpchm&|tFnMK86bCr?%|?K00Me>4??iqP7'pb.DtLf,*PR$g-~1gmjMc'IZq63.#wu
5k1kkP<MiH`QU/Uupt|+*(`2%'E*#sKy<Q`=/El.juA5?X^u$zx4reh5&v?hVRzoKFdx/#6Ca5E2I0aQb_EGn5X[i`0|ecvgyp1B~!1k]kYj-@iP9BH:d&
w`NInc|'_KdK+1[`~w4ao~WyK%'hn*=Z1[w,izla5`GKrx9&JixmhbN8Hn|](?q3,U%S8_TT#qj;8VB2U),8sO?fJM!wbtvyN4kyfe1<5rh$40kFI_qyKM
0>#y*$r&+S9Vbx6ew-d7E7hMIWOnazVB?Md,;2)[-=(!B2rh[L[=f!#L5E;<3@Zx%yFGNC17RuZ#N]lL36]cK-6<h=]4BBqMPWVXmZ*TGRa/DDtO~`IsF2
_zD[SAd0_&H`H=*on0=J]gb:GlZ2UAjz:WmInERBx&$#RS)Ma:EO>yi_1Lz?:p$`1ykD~;-.l)Q('rL5[;XV-.C'rH5Tu]Fo?d~|o&gQn1L'[M`sCE&;>R
5.uP_6*i!@Tp2*XJV/OIk4tmaA!YSe~E/)!#.x[Rw#F,k[tle0^BitZf.f`!4yMd%86mO$n,[=r3>v74*vnG-sjQGYoLg-E7c|<M~m@`8%>lrj-#-yb,gz
m9CrgS:5#T8H6$0-wlgf&tH-8uY2o~,33g+jL(GS,D%6Y^~YT.=Q1|,#|f2BaIDQ#^J6uJS]39'_e[P1i)R'6G5#u+@iwL7#E@a/:gkX8<o^,0)_WmE.`n
X5&'GgIn`DIb5k$-hG,o#%+cTH=P6H>?'JHED[TqytCS4mx1-]X0GXgD>^gKKO9A!=`p:63;DN_-#v'4&UTF81f1>Y;6Q0?|OLqRyh-,wFQ/0J[xtXTqd3
YQA*q[ndIc^S#H$8~W*|mYu&G3sh6@(&G]AD<lT/8r[nE0XwNQMDq:CB1j6<mI;eb;u_0ezxh)0h_6fY+J)Cuw*%Tp?WSCC#!_in+F3tE4[-]ML-]X!PSR
k)00T9yJ<<D2HU0KO(UWk=xqpme<fK92SZ?K?%[sB&A[dc+PHk7p#|'o5Uj'_MCloW_10NZTjYqn/6^G:p9vxUUWrBtMT'eh93|0vyB*ZF=aFfek7qk#8`
23f*T`&i1vyn*j-K(pUJM'PE,hW0@Alt~/A%O`6.k?jj&dku~h|1PtJCU`G)g]mQ&b[:M/<N]+ZKG*(S+r04T&18<gYo[sN*bYy,Wi#TV>_[IxHgolpY$z
j!uyDfr^I'oa:aeU@By[5Lg<b.[-tT0C.GgC|vT1=p$LL3#kIyM%HN+hC;#@0h)DE%)kD^|%Wzq-=6@-']!.v=ZQ>GpE;Y[GgStM&,MEI4*=geKssKfo$l
-MV.9OW5SA!'U&<UJxa@[[mG0;g#8VC$nFZ|zba^YZG;;!vhTa8Gr?utSV9z+levvc[tHX4+KlW)<@#z/n/9@M~-IO&8C&ky%br<UWp4tq2uha>%>(c5|J
YuT|=Y<WaT[T>m]oCEMK'1VaAMDHwy4_nY7,x~w-=ii0aM-j58L>Rn;q3,W--F+MG'l)$UJPMDmR(vFnR0aZFAr,[6'OzZD&!b08+q0cQA5<t5dVD#i!Iv
q4kR*Cb&V/)##*h3jKv3,P^HM9a%]<WjXxTx*C`N^27b5#BXa*V:UTW/]88|~Jyh!P?-FG^~8jSXu/-B9Y!-F<3DZ=p.URw9h*3.l+Rz*FqpxUjPk|6'V<
LMd'S/OUyRDyVrs8^;5P23AkTg^hXJ0470`?^?I&F_YaVm)M~%.eRMX'@JU#HWs;y5RIY2dXDywvrAe4o`<$te/Kbc&Ha`g&nt2F.!U*+*J7QZ`0weLHg8
'O~OrU~'SjhM'xUwMMH`tT]%|(`>MYy[9&H2DGRztO*QDzJJ8xhZ?CJDrpp9^w);~F!ugshNuj|wSS3>LUPLt/I$3rT9BxZ[pjiZO_fN$JOe2DmA9u6TKg
h_=/$qw15f~<q2$lN]^.8X72'*0%#pS|dKVf;=~k&kv))fVByt/6L$yeJ#TT3r*|9-<TrJV/;l~_0^QIGt<!6[=Yx7;ws&kt?iCtq|33)r/liq;mvf6f9Z
Aow~;`+rolUHVzNh$sz$6y/`at40^9bUj^EjAY2NP)/58qA9YMJ'N*@9GH2P5sX1/4G3(AMm2rLJn'~CP2q5#ff$?/BS7j36:aJQb&HO1(8Mf`,,TD`6:w
ma/Cb)wf^CFhbZGjn6AsUxXc1y;0sxC2~Y;k|g3o9aB&u[wmRUE<gMCtih:r&!h@5_jOqNQ[TVg(n7n`_;64y.Ts?@0Swa[)/r#$;SVXMWCz1xajc=TPqk
!AF3Y|p-qgW:;s*Av25d]o|%.Nh|0j57K63O=~#cf<z@gSfC8_[p@TWP8MS,@BsQ.6u=K.^NOg-88^V#1ck)!lMzq@k<_R^77Cn%Yt7~ufP~B.F_&%`~i?
|(98aijgv:N*'YZrn^?3Z`Ln|qz,F|!2mrhvL^,P2Rx-c0O12Zo<;.RPAAm*&i%[,tPn//]|1Rl>20+n]o%?+;;@r[YYd&q^*/AikHrIP8GQBJNAZ&&+P/
#Jx3FrUDU*$rX%(c_PH([z97122SP~Mh|52s7r8AuVTEzSam,IFkC#`3cJ'nERh:a+#;:Q367B1-Gg@k:~oAH|@/1pjsYkZ#t#(YG=):v1*[l1V-M$kGq-
Zt_pDB3c&XlvEZ-N3#.1GIepeDB_yz=okMv@@G<rgKzpiNDCs,wsQ,f7Zd1J&41D3b[GYLxyYgg4tTvbIrw[/1n/@)Ldx>$y(]?cpL#&kHVEqj7&4^%6@u
/B[Tcxmn=,)V>-SKZmKzo9qaz4ioxbT^w@TW[p]r%AfE&J9,JAB&$RhHSi%b[s'|hJop%]vU);Fr|<8j@!NP$Z2/io2)3n>__'FYg~H1QtEs32RA]eb#=$
O?nYtPja=ghh+?in^RNJ#lMjm_0HVFwM&1`ZLIhH1dJ/5asl?Ao87-,>#wIT[w&n@5k[8n(232=tEoSs8VVCJA]1YYA]6Lo/y66$`]:n1B@tCUO+AZ!cc^
abAtGvuR(Qz6MuC<Lf!di3Ke*6u?4]C3q_ItIyW5s+&shzEQ2;w'`pSoNlUM!3E<YE%h[Mt]*LW_oIZ>YDr.h%1f`u?*]TZ~-:S!y552ELWLViGqO<rgKC
G2ADWc7ANd|Bc6Bp`Eu~;=$nS`3)$5.Ly+4Cs%>NiPyu7>Wpb*w~%&]xNQnu+im!>tf%@II`zyR?EI2C%.r0gJ8MdV.EZX^0iPWZ4dJx?(4P1d`/*aS(6-
3_7WP*3IfK*iVy5rj8K'asR_'I=sL|Qsq*VJ#m_2T=[Q<z*d+m<KM5[/,>T<oaG$vzaP;jQ~!Rpn*66?L)fvoW`p]SRbZI/VyMVh[@YS%n|6N*Z],PM.W$
$kPq`cD>;9Xy$ROp1'M>.Sp76/wLwA1BrvV.`@!rKoX4;)g=V/kiEFHNBnk^FaaQd-h)*64p[n?nNwT/gN%r/<ZJoT-,fbUv%t)/G'Y,=;E%y;ua;`XI;[
M_(T?R5E.p?iLNm;YU~OGl,ts7wBt2&vmnZ3N9h0_Do($7MF'KvZnIm_ZLip4!Y2_/3ho99C,Er!*7ZW@TZbJ6O1*8K?1;+%3M3[Z+&c:`b?$dgPko~X<7
paU7Lat[)+KS%&Rw:&`q%qTn/,Dk.`v6->wfor)`rA<J5j0`(C;N95qX7:Z9`w6yGB*L!5XUvy_r_5?(;X?F0RlM3#7Xla2v:I[ev=^GAQ~R_u`)6<:,~&
AjZ</vb3n4gAN:(fJv#'ybnFCwIpL_QkI#(q[*#?O*LnDsBXp/|BY|,m(fDuGHF=ALt)&XQzJfXO89xpKErO@3(-=1G8fq;NZG9z4;7Ow5?_^w6]/|.+gO
u[y6_1#5^Km|Hk4fADF+YXm#d~3Td!8D`K-XxOmoOy-`F$fn-NOh-^s%%Z#z2[;rDJO@/Gh:c5.pWuRVTeUWq&=~,ID;&-]xAq:c/HMx$1dk|Y;pJPEh0|
]~O3[>g.<Qr>)&ZO<?v>LB9cbzmO9'5ye[<ejF[4d!%;F:(?HUW+I4+rOzKgST0UEdB^uge4PRmiG;fp>Z8D(O'q1F1(BRabcXoT'*WWjT6MZzK:]FM1N'
`-u^x>6OfI=xH~<#IN+X:TQ9CNBpX2[^0mC6WzN9QV(9w564<P@zn`&,l5RboyE,ekBtZjAaC~goN<M&9/mH/.(Z;`#Jcc_x&qiqDzKG>4v@HJ4XQfM1@T
`E5)*>+.|Z7CHrBwPN|E[g46JZr$|FC&7]K=(w2HfI>*%J:cn_$$<H7V!+`.kI9oP[#?0>7@k<*RR$PC3Vhu+*=D7a5L3h'Z9+tHn@Tp*.2%?w2OR[%TE.
b%@<.5@bq&+0+xV)Vc9MaqDY=|ke%w#73$yyKJAO)P^)2;syCWs6^L[9q(P/:s*;hsDFNPXZdxZ$fL99nLmGb#Vo[BR/icf_-3y6hrl0%YNJ!x~09Ct_%#
u;G#4M*,&aY`3+v]#Fhug0kch8Kx'JKo?p&i$F4.2AEDWTLyV-c`LdWIaPio;m4Y>4)|F]PTs3HO.rJLIeIzN7;%VEOB-(;YaS)m|ZrNa5Q#g1%/d*X.b;
m+agIFQwm3SS8|pBSpuz@q1-(1cdN/Zln']nI8_/<N2+nFs3]_V-N::)KVLO6,zs6Lw)-`wr8q,!CSt16MoHdVhOX~zk=*(rEC$_1Ts6kJ@7c1>lU<_``d
W7iPFlcnK<qsQOA:`y9wZjxb=8M@9NviTy#lb=v#_&`AB<OC4I+.isM,y)&Iea:ncQmd)NiWW2aC|4vRR4+r#uu4>N)V3-6&rCXYr~Wgfm/TwyQ*_(Xeh'
;_sg8fTlicKGdDL&`p9_Fl?g!b2cB,k|38HfeljA`cCd(>7+lr+Mo??s`*BcV-I8@>00wy'1n1/^[#yn`2,njf!Da~^X.'n'YEAGg5RYrNw;WwcPheYHDI
+~^*_vhpVhoTWgg#'hpj?[lA/a|z$'=jc_pK5+VAxa!PQ68WiX7|kX<0i7z~E3tAXsTin$=F#UDLVsQs=n@2zTOGI=3KD:Rsy9oGTsuIVzHby`?BVg)6RA
rR3ar'Xd+SnYXAU8-|LftWzZlZ*q4c9_03fd.F-2|l|;w_InY~#DA|Jpyi](^r]1LB*Qy/d',Ewni9nv]HqDV9FGy.a7!R`f|/42iu^zJQOIhk0qd,2'ou
`>rwda[7J`jF_D]Y4N7Mgd)S$fKlH3!ybJXGol6*S)U)8F9U+.KA~yZv11_T33|Q`R|B/7?Joj,)f9?bc'UbEK,Td3,FXs6*A5<sl6Wh(W0`?Cx$LS[/A*
j&'Bj]]Cm($VGcE1b('?FYp:~;t[g:t>RvXM0+4.9DF6(rX^Ij.ZqbZ#IA@qLPs8jA!LdOIU8/5_l!-YCA@lts0/t1M8rrMkk9s?*l1D;$/0bnlFkR]#zf
#;yn<9UvzN`ACMOF(S@w&A~k_s2n;FbnoCbgn-(+@yx|.&?3_<vbQ;[X)N?%YS)dHL]N#/v-+bN!7_Ycy;>T;P5D-ox?=cpgE=5ZZ[=>K<9X,Y]mKX~%uV
d@1gC%(-2k>h7[o^</U%4ec*?QnT7c(Ll0i/^gd6N-W.IAKqUhE:tw(X2,8o<q[pT9N;%z2/P4'o*w!_eZ!Pp]K):A#h]vn0d7WTybNY8]iGlPZOK-Rc(>
+QUJl$|4!+>>b?E[UV6/NYW%CU]6=aliMb<27-faNg,Cj[Zz]5C>$a1a8+EM_gmvm3:_1m+op/5-')Ifo~5vp1'Gw*E*3e4&n@3S(KSqb#.1Pa:sB2G1fF
cdsTZp~7ruo/~`^vxt9KIa;O$XWWm&!][ZYub~nS&QJx,_@lbRA[,1Dfu7attq_pj8S@<u,y;[8Y_g$evTP<Gu3_$j!3&r<CtoM]sg*]~E0%PSySftT8+'
H^sJ/;qN;C_~UQ-Agp<]Jd20:/K=q@e:ScrwzpM3);)BflWpW*AdT<T2Dw$z~2rx>&S_xQHEkY-v*D^S`]ApZqFYZAV*LZiqvIKT)<dLGF@_QSS:f.=*tF
@YWu53#Q=&VUF[bz/`GkqbYji4kWi1%lnV.eRdu.`&^%,.KTnn[,xTU_aOqYCk20aLl?w!pwX'aJb2N61!89Zi9)UtPw2Vw/>mUAJP75)Zm#.r>9xV&bHz
G?O,7MmIZkXmQ<$J4thVrEt?@,_=z,R>n(G,>6#*>|oG)]UJDM9OGi_!MmbMHF7O_9~:kn'f2rm:R`#6X_Zrhs*$08wUv>N6bF)T@1~cuUxvbDaVua.W5H
Kan)7w;gC55,4?!Duft6ZO'!3hwW5NSrC7L+6[Z>;g@:P#G~Is9=^e=4/;!Xh/.#)JL4xm_Wqe`~2qjrIzEQjB0_B9Ahn9('MX%w-f!M@&d[|$V-M!Cxu]
,Wz'jC]m-jYjHX`u1X>$2*m/syyj<F@<pI;l]l|o--o_%5*,Y;1~YHN6@$[x^,]B~I)CE7KzvB-TO(xA?]jB2JlK.AXKay&fD]wS2]DJ3M9SI5_oKq.%MP
_hQ9bJtg_1!aX]DxN^@xFy~Bdgt]!&UL?^MUsU6M`iB(J%*$~j](F)7aW1Gq>TSuxnjK:7NItxpom3[|+TBWS$Et,!pGXxR)]yC|*1OUp=J_*+_6X!IS!1
TR[s?g%KAd2#JZO^hNssi#%'^7K6YrGuzHW]fM[?+G~LRS!p[7GzD(Ux<`QG##z?iRZ34`OS&'%?Vw:rtm6p!c(0XfGp*3JfN!3>2xD1;N+m5iR*<f|r:~
9+;!ZM0E`8d<@~%r42oHLc~e>]7;tR~o|Tsl-<qZ,Xs7B2Dp56D?&*U(8FoIr-#X,hmBJ`K*P:XCrzfFBMlHRk]?U2WZ+8b$Ly5d*|0kZiqE!R;NT[(kSS
q2fqmvw91F,JHpeXGoRSP;z(TJkMiCzNy8-?#hl.9KPk8-cUHNroX#7usl/=0=5p@Dh)R^V~7n6)n*SjR*HF`I:,u,FmgX:0C]dtdvUdat;EN:;xciBw=-
`Ts7#R!H69bG*0+2zn0'>L9qCVyyV;3h-jh3FZ7&A;ZZYYm<MJ;uA?@~@L=vbZN:pCdwTXW$8+b5hKZAo8<CnE@f3(|y9%KZB^L9vsO.M(,?)vSVF#9OJF
s*&U3%~soHe.v87Sb'2f^XVg<>7d2)FJT4UT-8vB4'Bmj)yb4;Rw9vR]q<j|r>k4v0]5r%6k-N-Ke48+*(Us|S_k;]^8l:AUHQ88oh6x|)c5UX>B].d^2=
_c_f2x5HeiXNJ|J@.$[!/qlz[$Vxql[)N9v8y6-hGSFpll5M(Ryft`3DFVrye_y$KewPwBZ'[F`'fF?qYpgToIB7]3[H|b#w5?_AfA#(?+[SWfGT_SGJRG
CAn2V00;wfv8Xp(GS6EOj.79kV)m5w8[Wq7TH(|uHle/BwByVTG>SBTo?t0oA^@~zdnUa]dtsax_%I>9:>~WBrCS3J)`Chx.^O]9FBQ|Zu(rTdOjgEYf|8
H/:i5$sZjFq`FwZ`|rbF,oWQ(4hBXsU,KL>1AQcG=bp;=e!mx!b'g+',EJ:%&*HC;~Z*6SXVs?C8cO=j%_?fi&m*N6:tHTIk09<L6|MXq'HqrxmhgE`evg
qR6BYAr$X+Y(1q#2`Yhy[BM-t~q:IMi~B4fv>Xvi@iN^q)-YP@A5<f4Z+)j*3^GN~B:o7RImPe@&F:[UfU.k>R=SE7blgC4to:&$SOXhfsW,k%_FOW|z5T
l9;B.]$%>Mqc2M^m;/cL[StYP<~[#t)xaU,.tCBWPOB2ncnib,='/8p~)~o^XC[9LrsB4fY%$<;3kDqLET2t`gck96A5XAvzbB9hGduvf`TE'jCzFH,t@0
o@N(ch-HzHBw@ED1[eL$l0u7h`pP/&NCkbhY>DT[v*,4.5]rig.*Az3s(l3r;?w*LOEZlb3#xO`8&!@J[49(-Clz.6W['sPqir?tZXIkNfy:<i;eVY3>V7
f]RH-[>?*ga7|+UZoZ`n4-?qAXR('&L8'*2YCquR(sCwg3D*r+%GTa(57w(-[?>D9N&,2^hLWV5iQj$rI,+<EbJ^JSC#/W9wLnJ.9l5<c>DyJoBTooBAvS
!$2'BWC3$W20v9p9^ds*]I_R#t`C,7fe5v$K9y<M:s?B8d//6Z;Q(QTweRvr]y'Rc8V5;rjbI^`p.1'cGg[pE&sfRx6%ZllV$DOPob#d](c-WISahw|&zU
QbR)Zg]rp(jT_BXwv`%<+|L2wiVA;^Mp7.~sXe-Bm`1W$e|:S/Cyu+RW)!BQOi0tf[%fZ[p--UlkXKkjy*mYKL)h_X<pJ=6KeW>xB|('a61eqjwD*HUD0/
nRl/CqyFyG$q?$X~kF*j*~l6jCX%0vi@$Ws>#bLa<36Uq|HVSX)6/=U$Yn4p_.oZSg^sfMm'osP^f8u|t=%>s@i&Y#|d(!@;*Ef'.?/5)[iN@EW1yP%_(c
*1rJZB0y8uc|A@-9%1&!;pv+6X5O~ff3nf,B#v(wfqZ>o#%6XN=#&hrw5&e[m,w'HuOe]N4Orkozjp72cH!59,d$1ZeP|#'F8FY!U$8fQ1.S(auRY2~5L%
UfC<>J%R%0Y[kLrGK/^gXdd0J;P-NST3SC$gW2<n~nfzdoK|r2A4f5E3(~XwKf#IJE0<Ti-<yX6?z>ydik<js6Kb2qBR:J|C-`0)-'s+dxh!h0nv*$n,<m
9yE[`,:j;#i31Pw052>y`zjUtL~DgP|p;yX=Xw]LQJ]4K.iuT.%CW4q9.ka3kG$q6ngB&D3l3^P0l*E~>U`/l|/VE*Jm(<*&~rs*JlKDbf&hy;jZ>nI=Ae
JpjW[%01d]Sw^CA*G6.TnDC/]&-,y-jn'6m63uPPNG=f|v_nrLkX=s/qkJW-8mzjzo|keKIzM7,:1rhfr;y>D@Uqt-0!!2<B+9ZL/2&V39CX7QQ;ch`H#F
0X1r0a/W:!1:klVKY1X8TxZji?cw6D'2E,L'G7<FyZ+M(bx)/Jl7$i4In!nAq3cNeX@49V4Kk'Ia:]~Dsfser~_x@9okLFm5zfY;fVLq4N_BcybM^3$_Vp
C:pvvSmW(7Zk-Zf_l]~C-UcqA|n>p>07<ycRoyDEtg&Q,u^:QJpZ0IkbV2_5h>P#E~ZvFY#s#kx^u&+sB-8vhGJ(>BO-0S|[Uz!o9C=&PPy]nD`L8q;Xrl
qntcNd(L.k#3xf=0jNV_2(7)/wVCrq$l;lq*6|#jIV5%M6HH)OB'$u!fKr1&ofD1L5<&s#eOSmyLb?rXcYi4zIj2T60Io51g5SV_X4|Z@mMk#?Cl/M_>J(
~0UyTg5cPKYF[z%4pgx9bJ?BhZ>DCe|IT$C;;k/+Cn4/lo/uUiY2`Tt?M_lkxMJjlgT'rkPi>PIw>ouiC1ZY8JuGY.+<SPc(t3d4?#mQ;CBo5*_Yv6n/R)
gAUj@$P?d3UM;j%iJ^FEkcIznp:*`k~`!?bh4oG;*4%tT!=($32jJ<B/dasT0dbn4#]FB142<5UFC0%4NXIWH8U-*:XY,z<@bk>xr'#YZhdN]H$=R).ju6
SgYjr/Mn)`HVcvhu1jau2L^=7$@*NS't1Sx0d,|(v2(*_eb7j+Ph9JUdV$9VX?.R@/hC!GONh=GrB^|)[7b|tjT,G+diDeb1uq'p$L?_[[7iwr:LZn_t:l
wJ-g0D422L)T><0DUwiBd+I9O$T[6t,xjN^l@E9m&3NFZ:5c?(amI]V|PkG=@fs`=LC.0G0;0zTSh8jKd&=|:rKDGOIkiR6t&!2.zT*9svhcaFy>>+Ctmn
hQq*,aD`,fz$wAh$_+tdEy>2GA[fO.3lXp.=PP)yitP1aP<LT+^-RCNA:0=O_NBI%to^Y))'Q[Y4/VQTFM~b$owK-(Ec@v<n+PXxN]iqb(RdJpbyOFDr&U
bSSptqx9yi]=Ha]]RpPcx9nA(:R-G~F!:AL:ACSSN%&rS]jB'Ol~4.&u[PYkyrh_arXExEk1uNIuf,kh|g+L,H:2'gf^%tH6AIRd>!U1[*|Y6_V-1zec)M
eAg);jk4T]U;GE7-?d(#EY;kur=G9t-UV|Dk`/yh%rf$pIL-NB89qu=HtlI-~77yzk$IfOA'^jN_27<d/Q;d_kCoWx0'b>-W,d4r;22u9Qp)u;D#O(#?i/
8Rd^e#@t6g1i|o?Og?B+LA5r=0icwj,LHUQ`fmdPc(:O?tW@XBu@bSPyD~HPt!cGs?kCtYP%B2b,lV=D@Vcv~o,`T![cEcM>+,</_2(bBR~,:u)BJWn*H#
I7GfB=aT5KRXQt$9-N,VfTyNUk|dHEV~.1s5'&n#;L)xdAeGk<$bLs?3)&NW|(CvL1(!;2=CdpB+Dz2#E*KCx`'ex%By)dI7ZR64$o~M]GkRow+kH9d`rH
8q=(~=0|J&Q+9h>%Gi<s*%~x&ils4=ZY!qhg$cr]LDSsqxm3yHNv=Tql.6?i)J#n1<F*M1Nu9dba3I.;b<]@P_7c^mp@~7.,Z<+Y/Tpbs_7q8Y.KF*rUsw
#.j%`h^8=;rMcjrQJ&P,!TMm=jPaQ0~5Sc@qMclgJQt7C7sB5c`Q3<L^7=/3IuG.s>a`ea.'SNK|P1Qiy4n.%]ZZ9LQ=yYx16FYz)Jj>Lz<#|/ZJb'Qhz:
#u|A<&&8G=h_QK6J&-XrkXJ/Bfhi@rV0kwDE!nj!ZpgMapb<#.(VV,?Nt$Iuz`)DM&&Kk8>WMa^t/8m49EW=KR?4Rbk.[=~f+jgmFTcoC92iMnOg8ok-9&
|XN8aHqRkm%R|z_rXP2ai2njR)/9TYhA#0lN@?Cvri3ouP+UXG3l+YN/nP|ls^ln4K(x'?txIGiN#!=s1#EJ#Bvbgnglljc+g@%#qu6#V6FwgZmf^tG@Vs
lc/qEue(7HoQunysn+YI^>~'pHY~hX|4M*J3$rVXd2l,rx=3[46zSSSx>wt0&iwz_Cx26QxK.D9EI%wycH?/Ur=Aqb+R'eMrysW#c*aqb$tJu;=w[A.nN*
fm*#/v7ceygr:pO.2+A8>U((MGfXl_2;~l0K&M<2kV^gZ4ADpmc@llY#(jFEvP|Yv&2Sx0noF5:Hd|CX=bLXe;_ETe+&!AmM_:T%aZk/NNz_%op+jt_P(`
JOFL|z00r)XEq34(HlC2r8F!Ec8t/3<@-H70s!5q]X>l+yfVl8A.E*8.:%.m!O6Pe|85E4u7bBObY&%cG9jZmVl<Aar+pgOa5Pn50,kged<ATdfZH<pAlD
ALbwarw74]~;2w?6/PXi,P6jk?Iucz74tny0Mz5`d$=K].RuM@eA'Qm^&?&%:h*B4H(4gF|8m:)`Q)g;GpO%ZUKU9V~P)UyC`d2#yf=QDr^Y%+P-@xO<x0
Eby^L75$Z6J#roxeOJ'Bis;P+J''y%FfJmomX|qtvWAYZ[$GxoXZEPh-.9<lWaNVTFQB#lm8kC4DGw<W*t9A<^nAta|GBSti835tE2-NrJ3Kq590'W_*M!
|_q6Mz_84245PCl;B*Z)*)M?NoME,2|(w?pt73vtPTmlGgs)UILZ!WToP;[ItO+bRwE1;gqJC'sQUp)Z,TNwA^P|hvL^K?vCk-sno:uA>i-QJalUt+SWvp
sod9CK6yeZ:_I$%M'7/U)3Y'h7=6MJ]vqz6n5_LJ>`0~qB4=_IM=/Z<CD7o:%<vlh-X/P?&d=N[B61(=nD7o0oB_'O~]GYaiwrpL-@a$Bo]@&q6*LK[.Qm
]e|mgD_PGj0nVH_~&<yz?qKz76:TaC7~Q`WnbXE&7e6v3>ej/i[;g!b*sjfLDp<_=`ZX[hnJ6Wm7w#ms|k%F:8`6u2MREN_2lx6'awqyJ]DisT&lKDBH6[
kV,a(U^2qf4k4sQ#3Ym[C'J+Fnu,G$L/sugU9,;n7ZKw#U<&KO#p<A6QBPj3neG72gMxmtguyofh|2|_:MbnW/:TR$)Na3wVB^*93#+/)X.f[~tvOU-U$6
I1W=.+n0au^I|~C(SGlF&Z?F$Q|&1>tM#<X^dMau%YI[KXbF'W=)~Jd+wA:kCfUC)v?r~OKEfcX_IMGE_2<AqkxW04|6uHEi$@B3tpW]C~4lX)KMGm#@6|
]yV&[WPMCNN|?q2x0>rhbmT)7`d5CZ_2M(~u'cmzV&yv23,~AiU5NdF0;/Vpus=&EtVChr/L5&g`|?43t+'4j%9vXPG~8JY&ZZCshG/K$z9FFx5I.p.P'@
;=n;6IP+J$`EK2g.IB@^wtGEc&98fKRxmSyV[;<%K6!~#lMWlyvk4PCvS/uIK_DR@h.P)U1g>@CPLYRF,(0Fkl:KlyX,&VcItXejd?$[@`Sp#HcY&0a&y_
!>`7Q:XBajx&-lDFe!P3?1+)hF+dY4A6w2m(W5oPFT~d:IT8^U|/v!p'3EG-X#euD?e?=OVST6c/cwg?OKyqG-c/1sBW_dci*e?f)K6Q^d:t)dqp#9!6|Q
%8Z-l*(@Z#r>1P!fs>%wjmo[;l8#+HVmLnk'1vjNi-3mA7RHsBiF^2;&d0~'E?Fzk4e_DeAb5G*MEU<rjK(!4Y4'wapUcRMti51[48M6cF(?&6~v-_&g]W
|b$&GgE|#iaJT+6-$FA*_:smi$G1;H8M_c0:l&IAE!3>xL'amT#.wLwYC,$AI[F4Bws'`*@Fz.JE;Pn!A|V~ORUg].wu<^s$WamkQRm(/xBQxVT&x?Q$U@
,]e6$oZZ*]1KJxQl&TCL0EfUY,zQC.DH2',LoSY(ja=cJLsu-TJC05);XPC*._`BK,oen%tU8gQ;0w2T^SaJ'>QUEOG4g,&GuZk1hC6NE0Y]Sh:`HNdU?g
J2=riB>Vr5~y)GP7L$rDyDas11|4DI]*!J4yUlzN>-.,J-zEDvD3#VXP/YKmS]tXB3U[JVysIAzKfI&KYTS!~1Lt3RI<qMaRcB,^q@#zZ`R4SR9`p_G&b&
6sSSGJQW;<vvSJ%-B(1V.<`_*iKCa#J?E%Y3iKZ#TLDf&k1/|EJ$`G-MfYv[KuW|L>4t;Xs#C14IqMJPd>:~~nn7%ILFWjG)j#Eu/!/#Q^-;67XaLg;/Ok
bpnmx1!(I.QF.dSA_kt3)w@~qBf^z=.>w!<!lSDK@=E9XQ#j8ynw3/U(3=|RcTYjUkoB(g|PNmJ.Zo^*L)w<h#~Bi]ITW&F0VG;J='&kb$!Ty7^@)x[k3Q
Lh2K@G%Ji&7]^:&v0`9fy%3I6Hr/ul(QV'%UBBz1;cu(yG5%1!Wr0.wFbicqe-1X;s&8t;.BUX$>dLDosL?$Ik,O23x!^Gc32iHZloi'te|my/'dpUyBv[
NxOsnc/M&Q4p4gz=ulKt,GC'RG-Sup,QX>]|z~77dNmDoaPK6hS[L5hD^4[PN<+lLKWKBGBjK.tTwwAjus~AP%V/7H'SCdbB4]3Uey$:/eKxK3t26~$Ns&
Txk?pZCI+Ln`&GGKS<<qC/eG_a:Vnh#m~!d/oF)C_o4@Kdie!0GJ`>ULHs!+'HpX;q|y@*NU15C1p&&N&nd,[L=O~XqtCdCM~F:>Yub+09oJLFT?KgFpn?
0z=fLnR,#nLWS7Qy4Dgmo]n,CI|;@#^U<Dqy!gC2My-D!'~8T/n.7/pZ70:.6f5ah9<<2gL>U/>.pEG`ReTrO*SGgm)s#Ct~*9W%Jake=MDPY_to~;bxwc
yw?sbam//M1m?3x.9I0l`po9Cg#GZ]/_88BqJNJA.58A)C*VDJwwgj^i~kqD-0NH2h1rj@s>?<D8#N5Wh_TLO^1^Zgi(ct,#~[wa(MlfZ%w$-2W]TFL7PC
ydwy#d`;0K<S=$?1~da-1kiV-V5`Rtj0vPj7Y_/<+ArzfE!a+jeoVF'40a)':;_JVj%dM~/7zu!@mB*:/ILJ5StcCZ&*MJAp/5n%'Ytjqh'x3>P-u]9I?5
'mEmzC6bCLiZ44dP'vgj6iB$a6>$kL2rX&Aum,4WKH@#PHwD<3AF7)!IX@?egeKTz]JE:]qkM:5.uoklr`j[pvtdX*@n8H;agoCrFOaG'7OAq`7#xZ!><Z
/Uz*/DdQsnE=?Ix5mQf_H$iYmLqaAe]hnoBvv^#dtoY^+P9U`JEi4%->h6$K]=jcO_qM-S?'dv_Ys*#]dAGJu66v)LLFFpn>YSdFw!Mu78!/B+t%piY.xN
JyVGMjd0FY|IMX)nCZ16#R?s6f7NXN1?]4'B'_#a~1ef/x:Bmf)vbj(!V8qW@Zx!t|nG1aKrtAl)<C8JaL!3?`Pu62wb3jj:N-hs2v[_UqV,e2|EwtGI)y
I*z[K1Y0nzHv.dh#zgWPN.n*_#e,lHP=yWK1dTE+;%f^%02[Wt']'?-ND*9.#&G)bX]_~,7XUe!?Fq(kv:4L?ko6qmEpKZS^]`-lAAz/E[~!/SQ7OKgrn:
bC)PPQYdm%(Efy*OMbP0%8~zP'iWeV-xgdG:FGlXW4K:1K<'79onN@7T3N|:H|4zkUxJ@ov/:SPk+UO;foYl'H?^;ANBGkv5z?Hq(;:sY%U)r_5e@y=h1:
--?8dvIBs#5l-(SDMhs~rpsJN7*Vl28?g!<h1uv>x,Yhy'NwPC!G:@jNpM=&h8my$Rp'Z[|d2u]Y!Al@%ixYJP;k|5'Kb4ZxVc5wc:w'#J,PGW>NP)L+3;
iO<t'b+XU,R`X~CJ)ocUb2=]MnmH]Ss1HNB2:JEWlQZcbkDU';Dx54=Xes07p^Z)GdA>eV8ciRc7_EZfS1pDuRvSlpTrTtIR~h3bkq)HC%.Zdwf;da[Osz
3?PpsWQ`Ld@LJDGKK`Wjt!T.FTG&w9ud.@Uq?I8wN]DeK;Qn|3`.N;D?f,I=.2])H8'J_>1Phy0EDQQ&[y.D~XwLwEx|*r<L@@d=%[8&(AEbH?:bP>Eo!j
@|?5-..>`)UbgIcO_UCu8Skd;E$P*E,#Hau2ml`b^c?!duyW2)uGwdKiO<8|.1hd?N(`.0s]iQ$<<#Y*I!lIjyrBWoT^E-O_siwco!5Lr5de,5_c.>xb2&
sghl7B;YCadg@%==XD1eTX,9lUJ-/y`6Q762|x'QP7gi!DCW=ZyXt%9gZkKsv%[I9B_03;%bzjUD]k23n$VI<+i28WzdGErbXdlDq=k!'JNZr`s6GgP9@[
lejgdK>hQZg/F6Epk'ACSFDL-fd%9GzL6qJn8eF78JyrxoVhqV-ZGnRE1aoqBePNLW8/k[4SL*U]]o.`e2s@EJowkC<|p3v1mZlz^vzK1?_Q998^CyYojg
a#C+JYVQ|I_P,i_(G1(>-ao_<gBrjL2+_Z`%BU)X?47p&85^'$u=Twl6|zYdZG!K|;>?ZTTK8=YAR)b+v+o*lV&xm7d$DbJB7Y<f&C;_!V)F)+&8-Z<WXH
.kV,h.ADFo:%~f[uedu`O))p8z0P3*fXQ3cf'S#7:HoK,6yj#xC[n*Yzi&W3zwMCYuk-a7)RAhh~|-K!5%cte.S9%fO*yrpbBou!nRyF0SVZq@;UZgA[<?
RM`?>0^7rS03cvm:%WETS0/,KNLDQ9`dDK()k?$|'='07(jU-$O+0`%~7Gg9Fx=TD~oS>IU6amz,]Zwnn242|FoT.@R4*X6Z.vDpCG:gYuaR!Df>bp(<@+
q'BPiT`f4_,41y%PAwwMTm=&eGl1(t%8IIYpOmSZ|nP4A1=)&~G~y$x6m,BIIMO4/4V9__!ij#t,U$lz~hVPH1a?dz5QA'GqUNT>ho>?g3/cFRr#0-4=n.
cQvRGL+L!E9j$P1WRsvMadp_#3fve@[M-$d,TV@z5?t3lbM1|>%tWK7J/8PRibR:n-YOrE<1o?sN>5UQF0!=xC.a%~:&g5]wA2;#lrsbg36OB5bQ]m[Zz1
AX8(6P,2Gn9'U|^r$'fiN6FNS?K,r58CP$X,Ff0Mwm2;-[EzQr763lU2<b`o&|zaA-;BNh`HDGis=h@aPeL9b,qd+g!'X.Z#xJVqyDF3c8?lg_P@kWwsus
H26Mj!|][x/]NjIL8Xa,FTA3_jLo'^<oGu2[9ST||+<y%VP)R|TG[rpn6ga#ujKug!QyUI=fAO:9S#'D=041;L<u]b^8#BpxA!slGryv8>u^D$`Li@WX%W
'yfQ0nV/=y23G?v;&'!w;o;>3#C@OQ1f$Gvd8iwpT^<<TeQ856>[Z2~V-J7ioykiw5N3Yxs0L/c%YSYNoKrzp:DlN8kjJ+Kr1+Fj3`X;)yDBFL1If6cqf&
>$%w:v6Nc%%FIjc$,IMsnCt`--&X>!xMpDxKRMzV%;tw@jTxNH-/z6NE]hmu@d2=Hl(Twb`Q^1?3uS'['ozLa1;]Peu'X7>V[|%etI~Qf(q]A;Du<<lkf9
dIqyIh=Q/iF5PMP60-#Q?],B)PVXA576WW;4=%@9J44F0.RDpt`.5g;aq=Hfr!$5#vMgB5Sq5m$Mip:ujoYLV%Mt``<wlxamb/xq#rdCVUhp8/p(.`_Wv>
2;fA3^_2G#/E`kSH%SvecT4rhYV6Lk:Y+;qN/[X-#QwuWaGI+4gI*=V4Ea;!^xrtP~+&~JC;@+Grv5)6udbVQ`+6=`~C$X)r1AwU5r#-0OiB%hzzPNF$?*
8XQ6IPMtcBac>C^xu2d_s^Sn)RDshV^_8r0gy]WQuOw9[;VsyEcA@dWs4cH.fOAV+/-7*q:X6*a=mRt8*~rp8n?QnHt`zzz-Cm%QCkuBfp[N5%a~F:bb-N
Y4<Dak/rrs/w9R@87':j`S&_`iX&z|xWs2/_.WGz<KSi[=x#|EPv8V&AJM'<_#iMj!R|^R`(e.0*>,E!`Gz>K'swo9?RdU8^FBwyQ5]Z|wzPh/bG0`^$j;
jJT8DKlp=<Vj*W>PU!|n<%e2j%|P.qW9f:ADBcQ.mUx<DexdKxG<*RQP`fY52]w[KI7<wEI`TGF1OC8wK@UAY;O?bW(@z0JqNDqSW3#<>FKgjkLI8IP-.R
~)U/3iYi'fy$ZD|ft(3tj0*|`S]M1m2536#Kt!^p&;A_Pf7UEjg(q@Vr,vK|Z3EH@&D.GfvI=,ju?$!vQ~Hto@rn6VOH0)c]1%fZsFXUjFpk]^bJcuD*#v
NRYIYa=4?Fa$OkH(9jyS_16mg?vbg'._8=H=7i>5]BY8g&DR90v*'8a.5m?B&gV0TL4huw]#pN4:XG*?N3&W'wdA.w-XI|fLK7iV7^BNsk-nZ8h.H~*S,A
50dWqR&7&@O+2M]Y(@7|yW=S[!P.lW5JZCVlxLz.q<5Y6|cp/^|^@WU%x$]KW^Y%_F|;-#Audo7+#Lrwq^z'CWik*;68:(l`h/c6$e%9[Qb2VMH4_B'|*6
a?WJ88meL3XiJ@oSho+@6K?t+0&^['(,,C(j4z4xkpuUjh/xq%O(rF)>NR0odBD&x%uthm+Sd`?iCD]0,TflZtH^62oS<vh'vqbp^N1tTqY-P|qu?*$LKx
|*[E;,Rbbj-Q;YI/4Qqp^QVzOZr1HYOSfZ3oLVvVB6*.t*&@YMkn~Bk[m+`oM*9qw1<86pbn/?LD,)*bfN1=:v4IB5qS3J04w]vK-[FFxH*hj@DKJbGBK?
Hi0x!.(n4Kp&3<Y?U,ok_zoiJu.tyEFu|hjHG-1%hZo5_d~Pftuo|K;z`:*2FBH1XcVj1?ZQrJk^+B!&uniPS^&Gv?bxg./)D%&^Y(NIC|49>^t(|/VN+I
/&R(.yIBpx@mOCyVi|[5i8U`<7l+67JzJtZ|H3$Y3k:_EVGMaV0xs~FNw]Z='pq[[tg/4hirJQxvK%HTdW&5WNTp&i>ZBGnA*~;KI@?a1~u++#h'5~(nMo
akzS%uZ;q&F*p7Omi/aeID;k76p9v!:.iRY7;3QUUN<v0;_Xh6[F)|S;1ne[)7Fp`sb&HFXYMs5Rw.C-YXik@A#8Zv<lMQP[6e.'^w4gy_x~5/E;T/F0-3
#MU<F#|ONq+BbQlN~1TfqE@fxr>)pnr:=RRK_0i>P:>)M]7fbSP)&1'2V3ztvG#*v61w|&sc:ybt#4&d*T/AKnLhS8d;w*3Y:;23VDi[^Gr,(2!'_L_c@T
=PLI0L$T#veXUC>2e@kyBmg|6;@d-;u0UN$VY$Bo5UA=v*jy5-2tL9_QpQ@PG-@swC4eAgJ@b^j;yPpyBR4Vga_50=w(LLQIA.@|u_SXbhDzp>P+dZs=4$
//oi7+5$l^60!!W-)`R>v_.Vw_^~vzBWQ?!d.Wxn(fh7/3Bxi&x:I(<=7*?jk;f9e0mi#gLhl;K',a9ocrKdK/bX8%8o<&U30$Dk'o@8T)66+$Ubce)iBI
+W~q9y$]+cTKH|qO(TcwtJb?Z.hK.?v@y&YimuSY/1m;fAVVo9;PY(;PTrWLsva!XH1JZESVM^j:XJ2BaHaX6FD?7b'5]|;R8.U>z~hBSX*oq|AUM?xiQT
x:A-pAq/nsf`q5NW2zFR>P$Nz_EDzCApvR/HDo4zBmom[ysYlipY.6Q5i$t#^GU<;c8`Q?[Gbt+U]Y&`zEHdrI~8XW~Py#Hy1e>6!0CULGq!|?CQ8a&hRo
p^9;qj.=pghvCJ75Trc.Li)gJ/bvWAlvZV^qK7;mEwfR=*T.H2k/9G6iTjwQ0lLOE(x9'5nFU=iY<L!@cJdzZ9wuFt`Wj[Vu(`]<~NyGCg2pX@gC;yVL(g
zkAr(F^x!Qeae8Nb`,HT5C/I.#BB8Fg@xYmcCw~ftUEPRs$fGMM-[oE[ynFu==vPJxU*M<g0!8v@11K6<-@M/ukCcaRJd*wNu)O(,zW&C>.|zU5o_N:9*~
_O*1|4~v=g=Iw;FB#nM_>j_gm/.,C.Grj6.f9m.9bPrvaxt7[f+_[C<Y~KLkTB@V]%x13e[a.CC*I$RB_a.JsL>d0an?S34:mfr_*oA:~<ls|_wrPQ?3(3
k,LnL'Utz1n0#|MSIM),6L`idU9yS)UV~c^-KD+J3W[nBU(FA+2C8nc*p]lf(tBoknv`n,nK[l<P!93Rt<|<3jJ^.om>fP&51E(zdMH,7w:UQC[!bFd=']
k7u0:BfM~Eld]ct(Dq`xwoRexn'XSE`d::Kd^cwA9T6!1,ec)_vk>_)]>YZc$|$LaW`oh&q7<dD&?nE@PbbF:1dZ*3w_2Kg!BWfiIh_5A4()h~y/kMbcvQ
PloZdW6l-P|S>h88V)4%Jr*p'U&nEl+uL835vu6WP>&/F]:s6]~E:Duha'D5h5sZ>BBLmd)YFQ?l+j|Rbd#1$@')&Ev.^y%C$'/Nf+:T=q!Vf/-5r+:]G`
E|7mz_%,d[Dxf<dkq(~:0AS@L:XBmyW5`+|wDv^$m7GI%M;l#E,Q=OaY^bp-t:l!42_066vf9*A&kO=yn4[Dz+|,zz#'w#'N7C]]kRynBLj`Q4?)o'b|ky
0'_Z(dg[Is78XvtG@^j;)]b8,dM~,+:+&@.:SYyh$Na2/sV%#IxFxev-J02XZP7VU!qBof*wMXczkAN<gb1tiX2uPWoi-F'v$Zb&Y73Wv|(gbWBP^o.VK/
8M.!n+jEK*5>1F$d<e(LKg;~`V~iJLKF3tyB]R9jm32l4I.qAA(0c1TgOiew?oOLXu,=_q<Exy)8,ANr:xP51~c;N!w(c0)GFp]5_vkA%H,pgFx_O#e'zf
P=:d;iUA&bXqZ$c5Fjix9Af:ueCL?JiJ/1v5x$lk];&Vd3el4NU0_p*d7-Co.:nVg,B(;e3to:6K>y]:`-|3$%sZ*DU@6SdHUs_D~,9').0y=Z;4=m9E+Y
`mA.5O4L;WG[-?FUI`rRC=pS3GIFb0R5v8fDj$Onll&NBr*6x1_lK9jqf^!*/)_l>PB8G@y>im0kf&`8YhS1Gbs@Hl/q`uglcy?co7@oN%,*F'=*QOEW8^
R]z#-#G,4^#L@@4UG*eglSetR|Gs1$Smab1y&;|,6v=n9(JBKDb$.m+Dz>?~Zpf;'b|+^oI'V;!D(3iTiIge/5WWbEa97/w?jxBi_&f-P#I/kcK4[S7Upl
X`X.y)m[-&3-;t#AYX'78joJqfR.B>$o%xNTa@qPR]o71=[M?PQfZ_'@Z/R/f>voVey!uitUv[NOmZP-rMo#qkzk(qC~+.Ax!f?2~Wok9/PFz#|;e';LkI
RP~Iu,%$d/[BH4gu5zc=DgvY%VKivQ<xkkjcAvvgnG1Bf)-Z)/*hPtz1)`.Vgdlb%TLt60G.l`H]Rk:>F2WuOoT%``%[T%)17>JGA2rgQ>T;c94_PY:^Az
~ez^kH=8<m'85,p[G7t#ypBkR)KpreKBZzB?w1hg6qmd.@*t&D.AMt/QQF]yGN:|5*l1QUO^8-7ho?gN6]uL*'TY8@,3E0u`]Ji=XoAb=7Is4HtXSsQE<g
O&P5aPr1[p]ZTU/Z`irW0VmxA5,Dp?/v>.2h'mS/5]QmJI1a^afHVDa5r:n#v0o`]&SZez*%wYFb7Ik/<`lv0CP@<=@=-GIx;_-@hCtXBjmv54l-jKiQBo
C4mZATG%9*5[W~v^7</p/612yFI5-B!]>J|%~$~9#qx5TOXe!s:ake&PPCtIgve7@0%SSiFB2XM6$6n^K0Vv8lnV!eV|zGn|=$j-:WNL)CY*0kw34iXKC+
HU7oZT(gObg_leRW3smMiT|T?cv0PX?P#ja^1JV]zm76EwD8l-S8TLx?X@c/O3_Ube,=X]^Htg6ilB;9E4T7u>6uE]/T%6hDt_w`vXQ<``yJ8lp+TbpFJ;
$RESyU+U/q/'l8.,YKmSjOY-Q+Yl$GBkgj!Gi#N0F0b(e|A|J&H62N~%@gA-N5XH`Bz36Q4dXi:9Y|4Odh_/0+v,V6YL7*$b=Qur0c,Xqigfl=<||WN|If
#zF7Z~K8FB$5/8]fIC9bTAO|!:JCU1iCikNWY(LYV([/a?4GiUYeC`|MRoV4`ubAgCa,3Q9Jvm$^Kzv=-djw?'38rW'rGs<xGZ<`i#ub;x4?T0|6T[6o1k
tz//g@fE1gQjuQ&*3^KTJ!fG#WD>v.rt-E8jy?2%3bX?I2di]F_>u6Le!I*#=:%],06J?o1LE.-@4psfQ9L%V!tYkRKK#wFjh~r@]%gsQh#!6gCKHyDiiE
uo$d/f7G?J[*<O,^*N@;:4bZR;29exvU%>KH,y3p~1]O`H|w#fIhvY?0)sKpr~:aHIe@pZnnf6toO#vU(ssiQPiqb<E2ZQ`[lDY>*$r=z&()O?%uzCcRZd
0zg$&:VP2frk%SSx:yLQ+$LZLd!V:3o5%d:#072M!Af#!>jVO?yU[UEJ<3j8M$jwh*b6wt<ip_Y'7c8xtp2I_>1FvIoL^H5E'~&<]]%F%Q~%gUxy+>|-pu
q[tx@/@Ma:V&u3OyBvFw:Jof[~gh<,>r~9iuI2|9i+DwQ($/BP8;X8?SgB=?ovz_~+?/1UFhWP*>O+s2^oV|62$af+tbwtb!LE.p[%'|,:/+QkM|VO6YYX
D5Ut(AN_<+|r-+b_kc@R=F-g[h!Hl&.7DrjWvd!lqdPf40&:rptyG;b7/~7Bm[g5+K@1mPBzyBfM;x6RNUvd?kq$GH=MynjY1DS!Hqmho^Oo[|6PIZ`~My
-]]Du^8!Xo)-rFI;`f=5Dx:;?'%JT%Bt=/GodBT$2sb2azw?505>$d8Ef:,Jv;u&O`j8%,2MM&c,>,mHVLqnLdrQbkZhf8kg->1.#J]fXN;4x#1G2C43Ol
Hw%Fw[5:fJiBb;TMBiZ@V$QTJZ0oZ`vK@y<~<-I@e99R*_rOpkVgmgegQ_VHUAkLg:OO_8nu2Hj9Le:'4@Mtn:r,I#pZ''76_VArk`xxhsm*<J2J~0Xrbv
!6K(0*E/;dC`5v_l(5&Mh|dgnyc$bB7EUr&DMgEY3#_O`2vl$=fh&.2O`f&^tSNR_JI_5|X,'WHsH$M#d#q[W,wMYW&ocHT.kpv);:#nk[x1*:XOkE8ixn
Xrk=@T4el^XZQ|.WD+BzvfM8*9Q)y&jSdT<I-3E02DfHB'JHguk4h^=9a2I[]U/*Ni2.SYL_y,+DEOs6us;i<jnb2'[4//^(%dudnqI7_Zf$XXOrfl5|@:
J+Hy?>AL(0Z_O'9NXBN;rhM^wXX/>ifA9]X!S|i>frfTk7NE!|L0_%u]y|WbG~]1xSUh-swDl$*<+2&ov0I67[xifU#$5oTfanzY2!4^$cYfA[2?B*4J!F
Bq0f3a8?6AtqnG3Kp(+=4EI|N;B-U>3KvJ$SP||iT*FbME>K$@X6Q%oLcszcU+^?;`VXq_N1@UICvg3*7dXK[q,db*1osAXjU^f2jrtsS.R.ZgXk6Wnt!!
fR_<LZ3(uaEfuvzj%h(7'4b[F<P-7*KDv<zZ5zv+v6`6.>R<Xs[59Pc,JS/2MA6Zt-L:>2kSl8N?loo,se(^vU#I|F^a,?A@u3Kw^(xY%tFIR6]')BmeFP
LStm(13V(c:l?j*c&o`vH|M/6vskB3>'~#j;/TN-frc|m>?L1U&$2C`^,R??fBmr:TNf9~|XR6^z%ZbCsOzB^K5)[<Y`URKEWt6kmi7VXN?#cb0e1m5To=
JA>tccUbGtw,?`R-i,(e[Ca$j,D|k-grdhie9<neFE(F'6D6)~laYy.G^22J61Q;XxO~B:jGZh@xF5mGDP@If|au:TuP?u.n,UexAewy?m=8$nBP?bl>|N
5=fzuEf..w:xSQY.D#yVFhAkZ_G#6@+YOV](q]X4G4Az1zpV4KP]O^Kq^PbcoFGI?,KD,^O4v6?P-yVS:JqmTZaM),]DDc+yw0(yqO>_,)J]qd5!gNvm.f
,I$8-hRFFJ-ZXMpx]|eUZM47-J5>U@T5hr7;=Jzm<@;bg97H.^FLzg^A0YzNKdD__[(&r!a%()mSHqUtL:0>nM$,J)g-ez.5~Ud(?4|vJdK%>~Wxp'A7Z9
c0;|i/WAg'Isl6X+X5+.oj4O=U%aEU=XH>Yg[g@pU0b=xR#~#0mK?O^BFz~&?!/BDBNg?3tJ5A|;LG3>Fv#$G*lYD5kv|!aYeI1!<qxatInd4X!0ntc:tl
[DbVG%S/1c_IuR>DohE_EA>lcHiYiq0e5(kD4^]%~|.>#29FRZM>;Teo[C[7O~4ukiDM?=Z/|V>A)>nFPG-:V,E]=I?XR9/1dHDo!Jllh3oi;Nc3C^s-k6
IJKuHe0lv4;n88:O_%ks[DH]b%1.iBCSbArN`^D@B=39mr]T:tzXnWJYT_mp8WuPCAj&!)I;L3II/Au_wIiMP`W~:]%q!gz/!bu)C[NG<E5=:+:%(%Brvr
Z]C_0;])>53wm@^~FO5TU!F)0E(q*6spO4fvQhMXilEf85?z*YMfp8oK7zpP8gzrxCeDkcg@EkV;La5#I@YNT#zUtx&3#xkC/]`H&=J@:Y,.@B(4A4P9W0
,!Vs*+88#bmoMGaED*hnp<:kd'/yBJI~c/ViIf'GMO1#$?H<GNo:-a/rg`kRIh8]STuE(:]bTA~?!qzZ'A|`)~QIcl@6~ADx2F0hj)Z,EM;7MPycs+VSJE
e4M5Mq[z=/b3*=m*VL([fC<@dp-j;n6mEfX(NB;OvVxpYNw<(V6nG9BOH_Vxhfsi:Wi'eEcHhb47z~=1zbk@wNsD@$AA$(N34:v68=S(D42`&9L7)<suf[
CfhN~tx2K8a=WvIp3^!tXOy>>DYwG'%4^Z<B-eqU/uKyxM)!>8$TS*g7Q#jDGr[Lu_Tpw+~gJX6(AW[&%!_$9;@]9Ot.o[9EnUhW8CVtyPs]A5$0^nNg,`
ktQhuXZRI^obf,2J_~JfdVE)U@_pG(nPi<a6S`4~(:PQt3Utt8wF#49py50hfXB|'=E&?@I(:v1uQVP>TqQ_],YlOz,.vM^FtlQBS(D^bkz8-)l;uj9:xK
%*b&8;PN/5xh]e=e*ZjN40..*N-x6`eZoCk>m^3u,nHxw5TR.m4p$WBcc4=zQtCNrW_W0Cjw8YuBz3NqY:4l(E+Sn?J6auEk,C^33zxl[,Xbw5X6=zTI2s
x~/X&gc3pR+nN;.!=jYDR7hu4lESNZSw_|Kd=>59^.JYWP$=x?ae$jhM_e=uqwCpz5n4cB?MWhxC@y)qlkks6*OrL:@8L]5Dtk31tx0_jzfAHpWmxHEJkN
DfFB1:C;?/aa6Wip7O0wC`~N`p7cH9YAqO^,M4[U[5FGpWy(pStNS5q|CFGFFYfB=c+O'*WqpRbH2W,f<(q-t?z_Z8?~T,u0wC&:37ZU~|HWgP=9^!DO0i
fP.e.OcfFohWt[egAv0t~M|sBjC9xC&?ue8:4=,.Y7Nu$bcujgG-P!t4Bx@M,h|<Nr1sPzZY*oiN=mfbrwevu'!$(2eBq;I.q6FdFS&>9mv7WMnwT*P?iJ
~abMXZtu`/U/.#w>S[X4d`Hy.i]tV:|tBQ8%5e)@,rY>$9AgH(eRCL:bjoG1!I4PY,Af!r1K1/5>,!h0#^DeYUCx'?AbR`*!HJhF`z#8p~l$itQW#|Q]14
>0~%?0DRp)@:N7d,urD4J~-G/J_OD.am+K<xr0PpR_J@M-h9Yq&jbBqqH:L)?OqGzz~zPi>)pr~qJrRH?$UGAh'bNio8b)d'Qdzp>W-U3#&DZd`h*SVbiu
2KeD@&jA-8T23eW|W/40_7l2/zcTY$~~j2Z6098~GBeJH#7?^^#G1K6T10Q)orqYZ9NxE;Kk=p#Nso0t&BJFZfu=P6K6Wr:8yQ.pTsuouWdTv-mp7a<HSi
QBICvg8Y.Vp5XE^y$]p.zh?vh4_)W7KB8:Wp6ma0bHl3[;=u`/^w7wE;L?J4I;F,=|DfWJ$hY3kC&<S4WKRUAqws.k1SQ+Fr#da|ZgmO?+.~#GwFwvx:y&
3&yhl-Jk`:@*>SIlyQJJ|&GQI?A|Pv_6tn0cfY=7lIwE*gkB804x6%E13E0SZdDESdmdn~XaJ7@/HQk_p/8gZk;8g))fn9Z:oV9(o;;eBgB>~:7C1|:_nE
V#qEOF&JiHu&fkeywYW+?m3>&g8|JJCe#gO!KJdg4SLs.m!44P&9xZZ/4F9!T'1'Rz8N3l1.fXTK]c2,$XHorzhY2%:,<cTAID5@Ab8~HEP[8OqX;mpAo5
4n:L[65AD3~,bI,:M4q&B.d91Z:-~BF/2SaT-A~@ym)~vN)aUBf5Fgpr_<juuwPdxl@~C8VB;'=gU^[1&4]1Xk[wo+)sbTniI?CmNa.Jc$hVtg&s=VOtTa
U5<0n]NYpAgTs4+H55Yj^qzYF>WQ(>4mau|t,>[**a(8ExP>>3De+Vx7OwI_VUN2myHfxL'shlfRuiQEXI(&nhEB[P)Eb'3OnBfcP[U;M?WhhKh<BkXb#$
ISK0['Xfet^gq-J:6@m5nA'?qIQ)G%-K6rzpaOhg)SQ|%+4!0=;`-cu;S(GIfw|&w*=icLr2lG5CeGqdZ&r%8!$'#:0#&/wXdj%9yK9O<,i!7/h1E$0)5P
sYLnrw=[):X]]_X]tUa%V/A%kgn1/fcy^/;8O+:3<GO*a3lG'*-?Po]F<?fFDU/u:8qP04M@IG!]+RHL[A1)tgIE.dB&fr,a1P#=^-'nqbM(|31';.JI1$
xf~?H0g+jtvH6HOg_:-ofZ_.S;WJE3IsCI(I[6lfDE36<]dP.&wnTLsxE(4(chMzt#X@6jk<'ClX7phs:$]logQCHvHG|;oH1DA=7Lr-uG$uBdQ^MA4e#,
;s_22-g)Cozeu~rZwbB_]xI<X@:ovyvWU3D|#aq'A>M`kK(*DeTxloLzqu$4Lpxp)Jh|jzW-m-Si!s5Nvqa!l:s0(P|Z;Y5E=79SlezZd5c6M_?+=W966M
&Voc7JIA@F&5SzgTR`@-6$s&aN*O__1q+aZ5'J;.#||,sqb9hgp~Z+5h?dbsL.ueB#(E=w;kQV5QKH2WSOgaTo7bn)+yAaP.YE8.*%n7@>%[:^nBd6sZ,I
<!&G*o=h!OwH@q_XNMys@)Ahn^&0F*F4=&0R#++A3qF*0`o~|qZl9nl^KFDC>LxWvkA=oVVSA+t)MNFk4;Sz3Q@8o!k9,IElO9q:]1a+@4Po+(a.]ho10T
nuPj+=L>A%EwtjG+1Xj@u|a.'[uVmRd''Veu!<>`3790<b20q(m-kktG_i2uJijnA8&IIK#YkMO&h5mg]u1~3N&a1C:Z*uG3YrL0AVVa#fbkN&I9,?YJ3p
!s1l-@6#~HbZo%Jv6+76G)/b=<X?!FmB*E|S(1X,+[IU,>PRfUkHR<Bn$Q!$?NWBV685-KA)?-O/COx2<1glWmF/D#,wA'+2>Gp%g/(8!Q?=G)>R=IRT?p
VUS>Es'S9IXvuX?$Bc!TM?Wnm/Q%z!agS?GF%MT.!z-?1)rSeAl4u#7z#xA*&c*1&>wt?LH7L`eLtJEY3&z,p9M@r~1z`dn]r0qXflMbN;t1RwE&&9w;-$
orZO376[;gm&u7v*dU]0Rbo]9ihxdBuM-hT'MR_Abv4iAn_q07S0!M`A?!U#v^&3k3ukB$<nz/Km1]tBl?ruh,%6=~>OivL;Y1a?_b(hPl#yJvtp%;-=`Z
Kb]WR)n=M)c2~aFwUSZVGu3HL>&sclUH(Yk_JueR%YxZ<v|_f%M,SpjMno7M&hsF3UALe7xlG86cN5b;$)skA?KS_3|*kJBy_g_(k)@?umS@.YBs_[+?('
5H1[=BN&Vby6k6aD(los:;+ohG</byK)zHyz?r:YAW|jx~V.u_:&*vN&_yD3c:j(loDk7Owp9Lrk^&~mimkjk3gr2C_'fh?xIC<E2dG%wlZ3-o@`W0EYOn
.#PNZu3j^29c3#ms+FriY)~S(5TQ0*&v@=%YuOkjI92=~[;/Z<qo#OW)S$ue,B_dDQ`>SUMP#=@1pP&y*@1ZZhkgV=D,CkgnPQcwn87T?ua^bN~fjJ+Yk(
!HC<DUh)-EsAc`Y?:~i2XwoJ03&:b:+]zl:_'A95$>#r29wfh`A=]n,BDumig20X0WEBz4S%`2ji&J|j;AFf=UlZ'~2Cal6eB9'>f4su[p$HDA*cpx4SLu
IJrg:nD-fFFu~(@[;*oNE%s0%ullnoH4:f,.9X[>cKoDx>@kdDP/mU87Hb66bu..4GTs|Ep6R8kxy:JS|P2<%loa7f[^!977N~dckuIH@bQuWkq4[%~&(6
e>SV1J[;Li-?<]lYI-357a&[2-0sU7<@IW9e3Y>Ah6;!U5q(rn!Uu]HDjo8F[!!7Y<0&gQ0%EEc9DWe9CM*?;!LqW<_N.qv^jXi5/8o=4!u2'2qR.K!DOK
o&ZGnXZ3C>QMgfnPX9Y8$0@tjDa8x=On]0h+[0>lXG`6^1,=F<QS<T,<jK1gH,vI-lHPm_G1$ykox8F1&c4VmU@v;=cW$#Vg$]^Vnf%V#>9&(`:wLUOQ7y
jK1:=p_CC~NJiiXArGLu[2ec5IW9lmY5loMk~b0y.O:Y<zPJ6'aJ72saiE<De>ln8T?*Vw?T7u<=!%>sA5:s+4og2kL+jy?)@i#,Tcc%Dc]PQ7Ofa'H$x|
TkrZj&57wi_Gqq~6|%Y&OR9@)7%5TNWY8'L;yL?3($6;H1ET|BShh]Fw78zDI;tw;Kyj'g.8*QTr&^w(tAGc.WtR,XznLf]~@TKH2QxB4sbO_!5)*)4~N:
AQiTN7?BUzbVI0z|k~6f.iSzL~.lzwh[!-EY[b<?'5)Z7=isgi0(Jt<M7o1Fqi`oz9Xtu_|Zr[o#BSfmpMaL[)~gYQ@M~6.+#cv0oGf`#X~I0nopHJ7VfY
BkmjZoj](+F.?WNeaGPN2GM,Y48!3WBuk%C;=n_b0HHjsgM#CG@o&CW-f<i~,3r.#-WV2<*|:sbZZV$=YCxtXv<s-,-Kz@PRUR-xN1WG=R<p51;EyZ8v]I
wHo.3A%5bw$3smKy[d^RF,l*hqQ(CSC0~Ec9T9L|BOI0cWVK<P%'`oA@nlVFcfq~#V==Km$ba:iA3!+Mfi*eu)u:9n&YpjhK]8J&YGez7WO,9!~|j<7Jll
_*p6j5Mk[0_>N=HJVrVHJ.xdt)~gn85?fvZG;Fq:1k&vOp7|dfzGuQ?KK|^V=t)qo=>2H2XYFM8$31qOGKuYh[LTaYMPch:R+;UPwv:i3~N#VMZ~+$;CG4
aH7H5HOj*FX#8(Q|+e@/3B7LePZ2AQ_>kV`?6`l~$yboz^gH,Y`-)bKMl0ZzI)BtAT)pOj!/g`,O>~)tXn9id6.`Hnf/_'mQxCvflBU1C)->.v0^~PJM!r
]sbR]:Wx#k#?&n6sR|8d*+?`cF~La#4o8Hm@X'ENc$?%jN,:&#B:<tm`^wCc17EUfPii)2Lbf1d]pFl+w2Q-VnKL9?B`MClZXi,xL49wkA`Q1]9_J;Wfd[
32=_Kcm49dUF:7O[(pP(%GbjtP'm&XLJx#d$Ikm^QS+Mr5zYU`R+&nP|xiLgHOs~ZMjPR'USu<P(MzqN<v:9|a[n<nK|l<`*kWee9G#7f=eC3F2'4E$XL_
9.QHa6V*D-hZ~+WS>o<O;5CwLCJ|SJ'k4^^cnq+(N0@:cm-0kUOtBQQuJ<i3')XR](#AsLjTJ,q-#yzo2S;`%S6S|N5sz]~7o(p!_IqueOYGDgsm3%avzE
KM30qXQivb7x&3Rj!=6]h>YpBzB(P4Py;g$<rX_7y~;FXH)K,bm5~<N*f[&(5B(=fS?J=J~3=R>5QaMH@kTF1hHPTiljR=J=f(=1dpq7.8LDeamEgRUS0;
wC8/hkuJf79z4C*gNGLcnLPpR9DpcyU4I;4Xz'#0.lmS7DkqReYQ%jE0eg%)d@O6|Qwntlv0YizjX|DUc=-5^8HZ]mP[z-c-:U:72hH9lW*>L'Z=gKU`(v
G[NRd*rQuFW])eD21V:-EUz,K',$>:52Ige|PiRM]Splg31a^^qCQi60FVNs`]PjIum<`ewD#WxC^.T$7L0K*H)tTS4ntd~AuYS#f=patMOkHLgK!'=R,w
1uPu9lMvq!hTjQ$sU+EYS.&?:<zY,Na2_=q'NosO_WZxgytRc0<<vX=#,.Tm4i#L|PL6i;oxDBVeMP)w9^49-nR%a%m7^Ey/66ylBi[!2JJbg-f=eY~.#!
e*LYq6ZXbc:cv,$1~nC`!cAz!IZW)CTH|^op1Ff&:=.Kt>^9=r^,06';Y[+1x~+>;BIm?I<GN=i;w?/V09<&&6SnaB6);0WSso<@9d>g=?rTh6|O`CF.!.
=yTYO]6B,nux370Yx|XbaCr+jeI#>tTN6OWP-sxcy]RCO,RA@-vp4IVOCJc*0AaFt:Z#&@>`FhnZB76=S@8,9Wql|4gxUi'Y0E,pGBHU1&z||ugO^3i*<V
u_Ng1Y4I;00]Xcl)D`9P--2Zcn,(Rc#.z=)SS>Am|~2*'l#f:xZ#dfylJ4B^<#K1d3x!wK+TL)<R,?cnRGqA<s'~bdKsq+Arj6Z`pplpk;M$uP*_8D0tBK
=LI/<DQ;0_]iUsd;drs>d%_<VS4zXa@ZmTCqdAZZZJ;*^w^O3WGpk,#<6DQuMg.'+q8|cTb14akN>hqb9m&,.Z.jhO6RNruo>)+0K[lH&9JB68?qpIbYm,
v@;,OWn:5#YQ)Mutu6HZAA+TQY1<lC[Ta:i'`Zuemsj2I.LsbRFSu].c^xt4`*Cx,Y-Swer#Y-ME*5/fJ0^^^eRi%*U4Y)kq>7[mkT0_AAv'P/:qhVq5k2
#GPDw/`;%-FwjF|tL.c+Ol-p-#g:zv48%oMv5_q7wwM[RmLeb,8b#kV|L;QOc]75C!NNMtXA&J%l]MHSZKO:Nnk^lWE=d1rKaW3UlmE>#d5]NM#917RpHW
5T@]'(8;XJ%sOfe~*11%hgVwM5><|LZ,G0[HAE=urI32&49SIy,1#~U5;<-)X1obn)&>/s-eb7VL1y?-c|0J,HjQ,7z<Ix&biN)1(_Ua^p0X^>.QAl7<<X
-|^,0@j<4QBx#<P83|4m~]hdpiL?^4F#NZ@:!Wo]XDYna.c5@h0`Patp][@Es80nqs(66|GG=2b[@ab|C*;9#fT!s36@yZ/VCaUFe$R`@U;gelwL~fGH-^
fU8y$$Mo0R.GN$]4.T9D>b(J,;bv$bfnUaC~&2;1(r+HW[c1wQ9&zDH!z>s_YFzDdRj'@=pvO6z@b#HoU'fnMXByuq(jlmBc.xb.|:lgTSAf&AkGAcB|n'
gq[~2hrE4=dfr%J,=A`+3Ngz`H5Sa7;RS+.^>[JPe^5[[$AYX:B05u&B.y3iqa|YEAY!fW>[LZ'F/4s6h=]M+SbP3|Jw*QYTNeLQd?C.9[m|eBl&^m76xn
&[Hs(/Xwv#0H!QjxT73W,Y;`;`SFj0*n^g4%KACrgjaU][qA@d.OuQMZ6m_-FZ](,O:.)a4IbMw&=,`v&%ujVuw4owj>|T.uL.Vz|^^_~s1^W5YE!$.^4]
%0fQ2vmXGjID;-.8i(Xr;i|u0=7bY8%`;(']|Fd9_Nf*MND9YSlH8xP?v@TDmIQB^udUEf:J~+7Z(a?a,Ut;3p1'v)~;[U.!h0Y0_Hii=L=BRZB|t$$-<)
;><'GkqpOsEM$A$xycR`N:#Kp6Pvi`Ip]$Q2AQ<pf]rV_#8k~F6nZr+q_B-X'u!*ikJ!`[GEoF:7HuAOAlc^OF]G_77jfg$-[Cg.W/o6<=&YOV:5SV/0^V
;LBt`).K|ITt8_5L|[HBPmaqLUf9:nI,5cEVFgb4v~dEr*XLVDdHD*gTXMZ^*)'GPrrs9)7/G2es/^vpkXyqXDq;acy[3@,h+|nVrDy:Y;@rhaoKLc^rTg
6,PU!8TS/%&IU6Y~Bn#'u~zmn5!)*0/qvl-f-5Pe4mt4'M>9&-g<dDM|t+MgYNAJ.,CUNdT+KW^L)i,~p_Yt.HXqb]Fkz;_bh**/NA-|VtYltT-W+~))Mf
qle*l>[TT/w'$kH9j[D:e|_FcgH5a8%5Vx^DvPp54<>_6`WkisNO)@InR,lbdMz~mBs:sO0!>r|=&l,/YfJ=nM5!O^?Y@Wk+M[s'!PjJG:ay<GTuhg/L^6
AkXdj)fbElbXy:!a`_neLKpz1D8hO9|Yb)S*G04dDp4Z9PUGQrH;)<|dT.RfKJC)>N[`U5<mCY=$8v5;f.ii8)EA7t?a(&j3w9tB)TZ]39Se-pB$7T<H/G
Pr5m=/GER$jrf)WmV^nyWzp~7rp:If>BdCdw];7dmMuX[6M,Ch&+%>q9Og'1~-'wy+O0w$tHMYYa1[`yd|~Wq68.%(w1ffu9-.ZI.J6W1xBcZ1hVK'[$Lp
pS$q*Yh/o];N<>u?HT&61Ijrh(+E=ON-6)bm:d0L$+aCmop$5pmK#6wF~qcv4!kNd>t*nO]&RQ?)S^c(I0^qj05:/i(3WB%>Bk/88*NaypNaI]FTJ8pr&~
s;Y-CWG-LaTri#^;5;BkZITVIx~]kKX5a#Y-Wb*|cPhPvU'Af;DmrW'o26G70h/I1PZk`W9(2V)dQsaHobX:Gy?)UZl-0vOp|xZw[[csM,0EdyO*1H3l[T
cI'kdQl<jIGp$_*k:#|?7a]vpWpI7M@9)0t!.z#$s0vQZ<3FDhrNA!)g#]CA!5&oKZ@Wa$?W'IP%,dN.Ff<m'xDyzReCf]Gk?q2s'/b,Gpo!F6m!d[[ZMW
lf>DRw/%~6uuIchaJ-|$EaL~;H74Zz*?:1+c)Q~CNdIJ-ku]q;Y`eQc<ke!0_l-c(Fs<sgoOx|EAj:_@EmeUy=V[fr'mjZ0!pL)/-4)!-.ehnmb@g$[ikl
mkw3BD`~:5aXbo+v>gH/;a?xtImlF`53`.Vx/(L+nJMnD*'_+uYZU(:w,]%W/_d1[_2$HJD:a.@v8YEkGESoxH*PDVqMu8:_TC#?%o^StdhP?!B|tIlv@a
VsmxK(Zf>rv*pybeE`4GtnGD/bGg[#Ncqk^<9QFf7;5u6*.aW9`E];XeF|Fg:H/II)oTxgtIj|(:UNdAi'h$6i?D(Rg^?*D_&ksRzc+tsEIW:`c_U3B2X<
U-1|6<SMHm,719hco^50hq8;KG0'u6!.S.|4=6!pCAEZ:a+S9yaJp|bCjmJm/m1#Da=900V.&RDe]-Qz2]u5/$rPjYGZ>=:V[9,c6Qgt/?k4ADZTI3!$lH
Z~*cK46=4!Nj]^|.&e1+S,;|5o<?)j7(.LN(yjH~[L$z'05P[+rxVT(f>[q+hShR[uNTIe[ib1U-pNmeC93SIOwO_JI<q@B_FKUg(5Uy8md>MFT?/Nn]y-
RLDJ7)1_*q|)RU2'vA/h~SMlKQpT%Rtq'eQOwK,6gAk&BPmh0(IVLVlYziXD/6,[g*70[IgE|H6KEprWKdZsKP|`#w>S_nn3t#/&OU6.P*#]0YAD34cS0R
&&s1/J0:S^e<e,9XP-9c(v^i#k6nanX^O>mnKp5qRIsz9j;Rfm/DNuIPqYaK&~kX)u[B51^48r&b~-ENzFi]0U@P~bt;ivG=5uzS&^%opnMU3U-#_kTce@
Hz#y4%/A@Og?adJU$&,!JTNNTdzm%w,xck:uYnoqSum]lff8t-HMb>+197)faR=cdi'u9xjgyH,q9,VW`|IhpEyH(1!j7pjR~LQO[zp1U3'6f&nU-b@TAk
Z,[g)@^5>|F~loG*MSHwJNA.Nz~$umq~LGSE5`m&N,2J|W1|1,@x=jeJ3ZJ8_(cL1aHUuJ&JCe5`BaCPPk.4;O&Oa-1no`RVp9P~^/[8UxS'+Ooe^q3(.4
N<c/v(DJ@,zDz31G*u0[v'9r[omuR<Xjo^]Y^NJ~-(Ba,Bx^x8`:P.qF`G6h`tVe2iNX_#X&pru]Mkf.Q`8f~&O@:($r_6FF:g8)e9R6#%q!~G(E_$E^9D
8(UTu^A>>VcM9~hTZ!H3Qc@N;#wv;K_4Bd^^iE|w`t77Ts0Bk^6m9C;6DfDz&s`wQW<ayksg1Ji`q&_RB8sT!VJ9>45#ashTL^Fh3sb&L>$8a3Dk#9-ddL
^*T/6NVYilY^pDp!fQ1DaDYh;6C_uSu7xfFcy-Y|HQR1TytK%+sbv^5oBXs'vc%pU431Uv(AV+av1l0qdV%DL%ixwl+lpw'v3DDwg$uwW|i:Um>.,bD;#M
Nr3k3so3V|'n%2s^m3zb-+YkoJfuG|!XY%,=bw%y.'H7Xr'=#z/_`6d8?YQfaMV:|d@gWkw,y,zC+g#,3x9gb~sIh*]u56kl>u6UZQ.!l5n:DieG;*~_&H
FAC>sxSC5UJLV^u9uFZ#~_~4]>%|]kD*f5lVB_iq>c|:r3MjlgUDPzFnzM_bY?:$K:J9CDAbP3$_'j>;g=,kIE!Pbg:=Pp/Bs3y1T8|g@GX`rLV0ak*!Q@
Ibw)F&L#9j%8*P$q6l|/|m5Qa:Zc,|CQP4'(G3dfKy'WpzZa_K][5G#DP'hX->qRKyVrYmHcf,x>8WM;k$el=vV@'*KaT?4zv5j<E>ssB1[?&hw*FSN*?<
DFVH|@>j)Tle:*4TlQ>,.'S+1tj9kCtei9^WZSE*;P=x`IbW!yT=O~G:_h@k-[g~L'[[c55)c(u!DcRR;|_h>ceXvC-daHH,&'By/ViJ`)<E65)hzdbw!s
a%Lbw:i*e3/j3JcZ?$BEctRNp(y,k;4[6]CrgI22W<-k0R9l_gnpFV4E&M1e;F*K5'/V~%oCS4eb+b6Apd>6_3N>,y=I3X_3Yi@+9QIUUn><I*h7dp4E?W
ytrdxH!Y)yGpTYQ3lQ@J3%bCF>ta%/mrz2Y0Vh7f%K]^*W1H>2;x$yBA&VX>xI%#Liia18/<bjYXH)JTk5t~%L^?PYNAKnrd%3gl(6)c;B0LIx`TWU38f>
t(|zW`OcLj|i=VsZ$AN5]$aNtU>Teu(QK_rdD8wW9!#zpME^O,xyQ))Uu(;W99f!@d!v8|Q')Pph#S!F:/FJUe$V>,ie,),;O,[4[..>R|puckBDb!mt>r
2.LC/_-u#lYI%=/.zhwv%6nMXG&LDuP)h(pWgDz&iI9'jT~)FV>fRn.<5$oOg-,qvKcj%6~clQ$<ci`REk1_0QQlk??4Ytw);ESEebV'wy(&'sZ4Fl4Hea
hSkE%V-JzRqHWyY0i4528P]+%0LA?EM83&Xoqv]a7^)oB:cUyXB3&nh!9dYv&43l)v#2u6u`~cguY(ga_(k|4wT9OA&Z`m8J-5pWDH^a;:p[05+K;l7zD2
|;S%H.)[&y-v'La_OR[=n8H=h=IoZk2G|5`?71j?L0<2<8hxuIah@S$$6.2U'Gm8)*0s]&!IOd],W0y:[&YWZlzUO)U8>]d+87~q|)iE<c1zIzte1?R/*Y
Z1#d_We7MU(rrn#eiR&HyXrJ#$11G34Pt>:d!)b[Qi7|yG5Av!=PPZaV>YX&/,C3r7Ta=<m3>T##tlIAcgo^WBRGxx/pS&1[*]Bv-LHZ=X:MwPY?Ai@(qU
700h-e#dExyY,.*Zdg;nM&2+S6~s-zwXN<Qgw6MzQ5A7~y@n9q,hxpB6a^;o+4)88`&~um7%EbKFjkB%~a*u!g5Id+K2,7(W~rNKGiE?h~qJvd[,i.bQM0
OsFxN,_lq[D$Rzg@3e_hfa.wbnMq3(q+9|@yjZ]tRff3u8o%7,K;clL.HU@U5ew:/48FnT&$%eL4!bQ~@Wo^#`'%9BN+#<xnDmhFOSbTS^&9i?-7/Z|ai+
k7rSi2#l_3&,ro9[Je'eYba]H[)rDi(SX`H31sOj8.U6&=~$|K$Me`6bv,Jin0E^'[S,e,:L~<6go[g|dUl>0_r;w5FkSqPzVl0!kRE_U%riP6>#zSv%(n
a`O[K&.iM8[iCn(9'E>HkW%m=58):%4'kB;:*j3YZflldm&d]gA7u-z7qY3<on<_=f<tl6zoUr[-Jp7m^SPc_S|q)3|w9tY3.*@MK_`r_O+XB</J79K4yc
7p1fQ3la`=MEFfFR,L7%b]?3zqu!OGxd,^:yKq:JA,o/`n.KSD1P^R-ILHwu;*(A^a5r'PX8]=A@LB9|?Nt'Lj.7S4>,WK'@[EJ<_7w.N=jth'V%+ase.q
5A1?'!]|_4n_|u.ObUjk<JxJ^`=0KAWL85r:+P'3|iM9cOx>;|^mP~+rEub4MRH,'curjlEo:X#zZ/jqIdQR[mB8TSKm<V.CEO(TkPM2UJ_MhQ<Z=jTd/`
T#RDv+M70(`B?jDK5MhRbd^$eMzH.]I,+$W6A+cj;?-,'&W?u&7nV<q4[?^LW?[@.qQG-VmT@I3g1dz&bHOjPPWf]'R|.rQMAVUt2%OOd(T~[ac#Anln3l
6Ih(6%QFcNCUp=xkAL68cP:4imHq*n&A`$&F5t)<Gl#Tg?rl99)99v/(8kQF#@`sd9^@(EBaijghM_ks>uaKfam^M-lnWCF#rrE4Ru4l*L7V2_Q;wqnxXr
ijnHH+)`HVLdcd@_Zo>)*dIg;e.1'7>2RI$yZNXGE#wygx]dP'g$U>>=@&enKL=$&?esmRre?cqI^[?pvT6qv.&~D`i<z-t!Eec#*0<T``u`xkh6.N5y%#
K3b^Xs=Vb7[k5P9WjxkLcqX:C:~3>$]QXo]0gma^kb~c[;+UmG/N34f<`if,d=,J`X2b~K2h.5b%HE)k7[o^_>z4qFOSIGJ#jnO.Q/dm)5/c)[c:Ux[>(p
/HtBJ~DC)7@_fQa0`#%6_?^7'ft#8=Vv.4W|QsKlPq2EO2c_X3LJI!A;cR5oE`0ZJe[7/xHgH`L+2R|3qjfDuwNN>H-93,j~v&00qS9|Q62Jpqbps@^OKp
eL3$xaX(~kt#*`f+'-;Q=qDzEBQ,<brQs@fqr[uBsSNU*Fu0R[DqW>`2#fS~C-(d2@S#zws^RR?zk>=2MDsDb.!6ntjhT.,PE^%6<dM/-9#!3`^D.m+DzQ
.!d/?En3tA9RyGJY,G4~tW(~AP#N_Z'B[!>q=7nd40#|0,(L~zyF>|tN6=`loiXc|rZ!8;b/l/)DMAo5!Qma'$Pz]]t4)IqEc%&O-v44Hx]Bw1:S]J0nr2
!@fz2~OW*-;+5mxZCI$XG25n'O+n,mQ`5050TW-'#z<^s'>5!o<Td37WamzN)J7?Lr4fzdJXDDc!Zi!v*vN4xQ=[VPoa-AXok'olnwH5KafCp=;j9hkhwA
m$rp`C=`[9:`z0Pow/t3[6NPckF][k!9=r[fISmYR)&wW*0=b#,!djp,4@E^8XG0$k`3:Ppv]>otvww_@U~^X/Cn+#Vh_4zF9Yu5ww9_L54UkPq:JS1w#f
%m.Ra,%F?S$U.Y&1d]uk+D]`V;[1mo~sv*qV^a46D6qIPje-f5o8Ajq)N.*v)oghJ,sjZ/D/k0|,9A&,o9-#>-IxN3?<lx4_9hQlZ4q2xac#N~n^?LdwGg
aw:8U;unWA1h>5lonJA[gi?P=V@6%cLs*>S.go88Fef[ZHP;]#w/Qb|Z<#+qlh?QIQIIx'+oAHU<`yR<#36aaAw7TuPh;38~7tB)j1R(Z=DIM13/$JR4NB
rhA)(J3SM$v%$nc&2CBjHQ#*AogeloL?P!5//,_4i0N3pJ$$V(z'KES%nyeZ=$P(Ji:ckt!Q<BkU3,XE:D&fswN]I5iGDfD:-,?].^c?z'ZW&fhDW?1*|F
XW>Eq6Sq0<'<`T(9gfZ_K3KB?5fq?%Qmyx3R~q$EUE-3(e`=U^jdfA.IffXpyamuw%&Z')D6TTa'd=iE_v^fZb;=L.C3Eb#)Tg>z&y10$GUWW2.)HSlg/&
`5CkfVMy!X^kg@yT',H@;rFJ!LA&GnvA3|$BP=Z8)%vtBENhm@G:(?V8qee]&3W?gaUka63(sxF%@z3]!v8VAN~rd=]C4zj3|B]zO/se:1y8FGi$Q)Pr$D
:4s&IlY#!1PKK~n6g|<F1-*AyzyOLd3!Q1#BZ%cfR#VuKFJG-`Z6z(0vWb0et'^e(kuhEZLzviAbDJPsWzyVM,hGBX.M1/i+aZlGJ?uu-w76|6Hr4OgZJ>
d7ATr3eehEFA<f$gqaA~G1|31ZM&15>E+i)j4/H?&#*p#/H&C[!S9@vB]OJBcq*g3Ou+uOg_q;hJh_`zuF+UB138=pO&NEh#<U.`QUM-j:d5|Sa~E</duH
Xue'8gr!Yh^3^dk/5XcI(ua/5T$8keQ2ux`Lqii@fa!lJAJ%@GUzG+H?eT6/NgPD?I2h1T;lC8Cm4i,a^XL'gMgS?%T&#Ts$c)<S5ytY[<tg:zBs&2BqW|
pTbYh_Mc~D*YhkCo=$'5c91u2.PvO]kJe:NRG~VG:4!O);/pMnif!&WOUp<N595wBP/pJ&~$*'DT0akYW1~.&$P,,:PB&fmgSW?|5rb2=prPO>fji-2_n?
]0`_^52))BM]V.2QsWAf;Y;0Ih5(D,*:YA0jY6%Z=<ZCv]<GhsFGC.e%Dv*%4r,FwIzMR/$/^%)1:^-ZLA4$_zb&#^8uyHin6u7XA#n`3_kXuYj-;MO|3Y
SvSvK]-hJM.VFX%lJVUtq+$;^BhW<l-~1)b$5:]y.];AznW~y0gQ`-&`s*d>l=;s1L4]hBoknowD#G85R5`HbW+C&'NnrF<2NRUieF?5j=ea7q#u':lNfK
3lOif7C'!t&OBC4W9:3md0v3&QQw>|B4p_kj40^)48kl#2v#$L#H2WPle%<u%A0%f($piQR~Tu3BHu4GHazBnO7ADc#(R#yQFCzPjVWz#WpPH|<Cre)P]Z
T7AeB5ZQ,s#QoS%8#F:5u&L4SU,O1$J##KIgYDfy%>HK#D*l/pMv_u'Ns/KU,qjqM'^NQSB8;dM?D.sRFH;eCzGd~;0(Bua;Z5n~J]bX=IzX27!o`GnLT#
f!R^a)3`G^6S:R:`!GD1>@/E?+L_.9BblCusV36(|LEj.?Qk+n$?3IGw#53~eO+a3Tu'^=W)w;=>2_'lR]Llv93*sP]DFc_RDVaF@2_d%+c|&2(y]%bH(F
B`[CFV:BS8nl6AUP[xxj@8i$;N6W-<Vvbu_A3dbSKcTd,I_I5OL2)e$fpn9n*)CM!Wz<~UCz=<SI*D3~GakeTg8?5Qy!E_Qd>a`G&w~($;,%yJQ|esk&W]
r)ScE_&PW6N<#A;u&k#B2Bpl>,gF#!Z4l!JC:/E2,eUhN@N@>yP*CE>Z;1]8dOrPp*A'oZHc6qYzBfN$Th.7$nOywYjyZ,a6(DpJ7H=sz$ktzk1F!Qwxcb
(CVM9w%v&'fD5R6drV~~FNWoG%H?IDyHf'xs>+9dZX>_Am_H9?L*xmbzp-z1GEf!QtG.BP!,qH<r@N41&90I=n*1A6u25RR(;#4NsG-K]z](uHMve_I~;4
_6a]Pc?Tj:LhwCIaBSv6zDoQ!xd5rha/i-KLV==-3znn$H]#4S*60]ukNUL=-:['8a0e8j`tBq>`<ZTr-WE9WQfN0Aa|Wb8-a$>/V7~#BpFR/x-W'Y5(QN
%%'asOW&.,HJ=?j1(z]K~Ku:e=aft29:h3][=M<iM45|k+7kZCYy&CgFrQ|yspwIHG4FPEdvt;<tfgCeM6g<F%cvwM:<E0Wj7&.~aJ,RM20/~6f8GQJVl3
AKG'XLYJ+TmdB;#vW,^R|]yClJTb(_'MGSwG52PfgUDF-0pFgjx*vv?/%(o'ar3&.QpE_Z_=eUL,_6LzN)#;]X$uuuGw,k;o!ZLD[0'7w?*WV,vIvw7Y./
Z^5=J:k#^bv)r+f0.Ywl+1ux]NC41]Ls9$=[r]qo+Z+Icc4,6zBbbsp^qFT1)m&8f_;HCb-oh3yny4H2u-|+gd9]%;wiL:/lPyB$IgGRLc~gEg:FI!]bzT
&N9=5o&%Eew-0kEq[%NcIopS;%sEx=`XF#Xq9F1>MjRXy5$34!_;y88`KIlUpw,TXrR#J5[4QE,a2t-D'BZ?gi[vuK|Wr]6x]5~*XBenjX?xD?|z5Y^biy
2fk@h%M4t4_uqRE5Upq[y_19>Kp-G2etoV5?4wx=%V8USJ1<_yfd'nxeD!d1D5N_LsTn8&Zsr*y+$p*2CQgTq!SXS^nmJXz$YihZ0CNQ;'OeY]1q8~4BL+
SvQU&GR]-5b_BUY`o`OrTd3!/P`si6Hr7R#kN0,OZns!x9ZK%:nlkck=6p#kiAe2%%wvL$R.l0T>J),b<6$1,m$^iM+y0key^^TB?Ic[ha.II8i(`CN!jL
5Mh`Wfcr|,ad3WefTq%><Hb-v;v]q<QqJc1Q82/ezFL[4L%hur<=yP70eO@~Jh4yltjI*ggc,l2d_@.JRcJHq`l<MVB@',ENoDjgjL2:5^gh]FKj:Y?ji1
e]=fc_x@Z4'95N/m2)NEimxr@c@NKbWNqpR(6UmtB4<~M)7l=s3J?Lp*c6G&.-)tl$D]_Ql9<_&l-g#B&2F6v:H1j3h;7m1y.]rr]qkX5hqf#PTi~mp^8/
OM`5'+1wW?Q$!9_~PiT~@G4Xp'67~o~eeK#(;V%J$?yZ[_)Sj>2U=e~_rYM'L9Dv,q8*S[%XV7y75=VW<D8>Gt41U&0mc,`Cz;;+~iwkT':!KY5b7QF+I;
VI(x'-Jhnf~!?wAP7k6INr8E7ZZ<El-hTeesv`eU'`2YvrK;(/]4xjz/P/N?.D'Yhl]rz#l&`nPdqDG+$oxI3|`Lh94+,m@G6D9MdrGS/BL?kaTjkB&9?]
[3<`UiRW7(YyneCB`7CebgX.3rSfFx'e9Sp&T,TIn8%$g<dpm1t8W&ov.2E~2Rub$WKvdNxpQ6zz$O?I/%JF`=m2g^3uW$%(sX2v*UNlptvy)IIT/(-cI!
/!.VV0?+z.5`2ec;zXxzGo,2A!m0pOc&t*[#f%;_]0IhUs_M#jRH~a~2J~|o=m|+n$s|4RPA,OQ_:4i]L[.xZ=Oh-:vSr0uVRKSFUlsCG%wpw?w[L'6Grv
J6cB/Y17opIfI_?hHg;Eva|h>pv_zc4JZJ!WXKe0/RA,E;F1$S6Hi*/F3O3uUYbc*M?Y[bGjg,:`Z~n?ACzm1sWy<he#eIaKNUj_--;oR<y'kxw4ETtD~d
m,LNztp,~xtZ.ST]%UL~:mW3](:kc~>Q)?*vrV<_,~c8e/+l>J=qHu9J:'U?gK5,6de*/!^nbv^%(bowI7pg(qYLnU:v2g|~)*Fa|P<hbc5ngZuBt`|Qb*
o>-l5UJ['4C&+u;Fb$`S!C.5)G9U_sy1MSl?&Ct(Kw*7$YSz;Dypz-oox$V>g#f?LwRRD)gM~fAur@5_t6kp$@hD%e2KMM?Z:`3LnSd^<fnouH?c2.QW6,
vJ~1=H:>Mlb`/MQ[6c*gQt>wqhO`!8us;$Y3/Jk51m'.*UJkU%RjKMC/D~7bZOL?^Su;Vqo?`s8GY*G0wh|tKvx~%grIVOZSPmNbH/OJrMI_?](h`GT)OX
@P;@(8oHJhMhxYa@S#Lf#_~@iRH?$tKO2(-7U@oE'aUD2v'/X|fmoQGS.ph=1It5iPQcZujC_9f2AKu;1Z>!7*gQ|-_HTBrC_OE)K8G96'u'SUG>YIpYNO
x5xzs.hft%r&lO(w<l5yJMUJAlAk%A~:9_lO-8lOW_!tY2ZMSljbtR(rem/UJ&2s`u<*z@_+e056Vs#EK=KoG@#3N3lZ)E`R(F1zvxc4!X!g`cmsr~Z'?H
]g`W)ym1X^yRV_|LP,mCPSs3h?Uuoct;<Io>LYYZv#@&H15C4.t)IpN?sQsZYh'frHarm4%:vp*xO7n4-O~60X*.$Y@<'k:/-FjXC~XR/be1$;j][ZVS-n
ZK>WG)^kB/h/L$A=5'9<o>9A8t3c.DgERL(k_VmV?T79EQ5TTM`MZtQKM?rQt8>_[07DrU@0sjHO4E!b?8HYCdCPD_r4itF$0NE~6XD%KvC|Vygv_w@EZ;
e[f!Wve!])pC8<F']tOQ877rx^dKh;=447D$G0].2Qng_?%A;fyUKPLy~6I]qA+HJ&rdubTD;+v7_9<B-:LGq~Nt^BiR<s=fPBbwhWMM~U<.CJKhNm]jgR
DqOjf4I'Nn!iQJ0EQx2G~`P9/#2D)1~X0D;r$VhFG/@C;20Z[y`]a|^fMBQ;glk/*L_-<T@U;.jnV#L1]iic+n0l@i^xLjaZP~3X+Su4W!`6IK'z/xe/%/
E(oO])0jrFQ0bSBfLx<~*38)#rW8S+3?+UPmCQgfxHf`L(bW@%F=5SAy.g:?p'ykULVn>-?i_S6K;=!/xjp0uhZ4o8eC]]d3|RnX?OICpi.u;MypOJ.6'~
E(B^w]MmWrT=CfRi(h-<%+6bxW3vq<^X@j7%+e5zHuX/FkiscGI_q,yj,Jm?JU:[;,G<BY/=hnJFKuWIMtw?nN^MHoz01x)LnN!5<oXO@!C5qf8I#7ki+k
ocO|+Dt$kqzpx>GU!V+Rt34H'h:pkfYxAjzWhehX@F[e!&x(_fuZ%r8|'kOvmOURF+]usHsxcTTnu7;Tv=j.GC>7BWQ[=X>CweaF28xB49JTMOZpG,&mZ0
cLY*EaOw:Id+nkic'7/!y8=zh2ivH1qKF|4kR`.yqtC!o1z'F]_hU2EQxiH:NH6+Wt<Jh-u7!1=x:o,TQ(4PD4)?;/naow]]d`tWK~EjzFn$=bndf`6>.k
C*xF1R7qLc8i+Z*FJN#R1c#YkL]u:5EC+l-5-YGH4m[Ie5|waa__#%wJZ9/aPuuc,>aquB'C`lBElyTRvbu5Fl3UXxPws5WB;Z:^sg_)*RxD>mxY:d2dU2
k]>gx7M:y.:4AA:-aB_~3(~w>to.~&p1:<ZNqJ9pHtph;qDZ>TAmu|&Z[[<L-Zr:YqcF%Q,dkO<o-<P[7X92<x)$^VJc6[3')I;7c3)!$S0V#q_64bj*_A
MCu@A7~3)(KPg5AIj'xh/H-0>SUUBb:1i6#BxQ(ldl[!&D:.zg[T<Z!mSCDA$AISBt~^yT!UGdT--f|Tx)$jXH`B?^Nr7/y4O%j/@E@2z#[I3_Qa<6ocKc
Wn?QEU<h@PI+xrtSKyXlqtfEHNh5wMq&W4GdJ.%iidy:,L*P_tlE&oaL?Y;!7dk&e9LbhkK/Id6##0PD2f=U.L=mfLu5Xb_ZsS:i;lcN3e!b-qX$WikHew
06_s*Qw=&#AaxSvEofL=W<CQhKvk:A=?Xx354?TgPIhYEFeZ7Cu2dN]<Q1CMaS*eunOg>&(89rBnh$W|<FYE8h^].P`a-r4FyG].tQ+(eX>H|@_nqX8~_(
[q0>*mJ/x[_+E3ZZt!%m>a*rosk|j2Snf5(`Hdt:`Ef@Z9AKD!jL2buh/XwMKG|:8TSU)3^4R`q*V(#j)cP~cGU5GPX@kz%0sLD:xJ0PwgLN'8'ch*cX;g
cx'EY8Iufv~3'<+#E0/J=bb|~_@%pD(o4ZR:z@Kxa!ef'l#EXP/`R#Fq.JZ<@oV?&iBl.d.GUUu@i)6cJtSvsLi]bKwsu@dTzJ(1Z;D^VE49ahkB71d%cg
?hi.12$Fn@~#dI.y0ZHUdej5vSe15S7x`i@6pWftHga_UXY*!#O.&WU0iO@ueW;7Hq:Jw#Hk|M@`EsO=G[PkvK6.ZDRB1&c[/A~H$B_YO/]0/jR4=:@B$H
w<<,QY$p(k>*zd-,Gk+h/)7M2emB&cW.tX+3Lrnn]~P#DP=Njv-nnM]yYd?nURj;>=%GKC,lb%.2,;#+oC!n(+&=vbywbKqE5eHG`C!*53kzNMd^1_`h#0
C63Of#hWdlxL6:^j((rmR]4vx!s7^:_eqzY<F'c~:[m|[na=@^a/D35lE2V|;04vwPfc7vAI7C<X:?FZomQQRdhnA3@G9:quo7F#Zs3@Buu~ceNq=0'!.h
BH<0Npo'?Kks`O!4rb=!A)Aoowb?3070W)nOSYG+!(kioY;1q7cNap[0D(|6e)GH$k3,1q6!tGSQ,weLFz*Ubg_Kiwv$-A*1;A#Fain%-3jJ/(Doo+#|.9
h7jBHC-c'>;F#[7QuddB~+ZnOglbPEQ,`qMQ*%gCL-T_LyE^'k7#dhA8s-/k!b3u6|6J2].jXg<.vR[5iHkp39LB8#hzd;K:fzP7jx[0|=mmbII9~TuR`0
HNYq'F,dHaeUDA?O]x;8<2M9v43;Bd=mK%k)IrDjyU2dvHtN:qOe0y]cT:W~ZzG]TLSN/Qm67#V,P^6jOc]AAN_Q_z,8V~ubuHZdR,y~G#]JfXZqObXVOg
?m@|&5WWGDr`;f1FyQpx5F,q75Ewc6e]=7gN4Y6oU*=)E#v4[`Q2G=g`X|<zJECA@hoJ=N?(cOwr>?_e6Wn]y!h!|!lv9cI8SWHDPgD*t=S*<Yv7xt*04n
*<IzUYo4CABS|pT.K1?Mgs(g^;,,#$~zka[=lQnFNBUJdS==09~c~j^w0n6UKT]o6``BPe3fsh~$~z60gh__7l+f`BLh3$[Bc!TYy+k;b$t:>f-ov^ujWQ
nO/@Ls+1m,lj.2,a+2CuQ$E=rM'd;4x*B*)Q5+]9Q)Z5pvGVC-<1R]7!%,D](HQ:!U&/kbq]v=#>wCc*vR`*5iw=MerYf6@E|Ce,UHB8|U|.NwsdIWFjMc
u+U?-K0~T-p~Sl@G<fyCf-<VhS2_?9,tBQB*4)9kD2d0$~)u[FHAakp@hmN9h#_?+vu-bj>EH(HhqHdv_r^2[w8q]V!x18N5r!(P;:Tlr%j[#=|NEr_o+c
`wVeCjP)f8TcfnOp]!Fg-4<|93OntPt#$MTrbZonHx|XO!fVkKLIY<Nuefw<CU9Al#8t9QLiQZ^@tS9j@SU]OVC##~!le+)lgfNJX>*WtIQd(rbeI]B$A5
2|-g+bBFzuCc<bf'KAXF4RB?L-I;bDljon4RxdAThB/.Vr9TpNXx]^fvHIcdJ+>Z8AX`!3|yahs'WOy&KI+ftB7bUB>KI&Ey[El,3E'x^7?p/9YN]AA?e4
*dv!AG3Ni&@YA,4.([,q,O.4-4zcbu:9):XpE6e%k%d@aNix]nx1/TaqdjHAe6GZ#h?TLWc:Umh,,GB0@L5hu6')<9mhlr8#5J(o3MDdGa?P:tNpw'4f<K
@G95/Hm?RQO>p%=|JOZmhm+H~?:zU2KejnS.(a%)BU)fLAm$92^9tw|lsre9ZXA#(V0(Pb&B>zPm1f~aS~|Nn'875tmWA:B35V8#&h/Wx[QN8`3:|FBS99
fH%[V1CH'=607US22O]xq_#3J$5JrFPsQqP:9P)p%nBFwn10,'U;Jf%3IPh|zs)4Xw6B$$%6(K)jHjC@'Qqy[=bUHk]2KzAPQ3M[5knuVNl%+Q8@7SKD`!
c?C9HB@~oJz2RMo/(&O3~]k=[%G-NEx1pqC]Z'R]CMF35aiL:(&'vtir6ayV-Ug.Bs0^4c2;AM9Uawe/BC[DEx@g<+j3CzVJ/<few->?.J:dy[Wtkt>D-4
/m2:@fl>*,-'Zqb9rNhtc8#rWF=obBj<WUK=%+y=(H_M<y-!zMJWY_Sw~yopg%4*Mk00N][CQS`4Mw#-,^I|+eAK#p6ut2,p|H0UF8KO[+5n=pHvUJ.v|x
i:#1.d5Va`M%S3Zxh2|:5%tBcwRPll5Xh?/KE3,HjgL<JNt-=&.2.*%^Tz/eY*c_ty_$<B$8o(%wOl.fG@t:NVYBGXm%EK;@>15kvnnwOTpG*ZOE=6`5|?
kq#/j-fVnY[ROnR52c-0#:#%6KOWkf3F%Kz?4nS|c!Lb[T<w7'pok?TV+$fcQ!p2]HxNJp)|Xh+-^66e#_vDyVwDj#-KZ>(S#O:_.!vj)J#BA-#=>pU=ll
(kXMnc*2a?$sjdtRZcKN?&K!S-R7<H)r<(1J1#QYtkwP2B8;0J-en9WkF)!n|w~gydrdp|X:3+CenA+->MJ?E)4lz_wu?g6(dj)][~15_w]a2aORo`n%u]
I],;ke4^C_U|bhWgnf4;[#P80[_gDZgvZO>@mGXG1bfEo76y!L-%!nFMJ>dE>IYZ.ur_(xgiM3GcljIG>Ntr6n3qF?qG:D;+HXn_vd~kC?_)9c)^9`nk?B
Cbg&@6~Tda9,jrCJGm2lMs;9J5OW3pq+-t9D~O,gAm@YEkavtLN_=?h4-Sa*O|q-E%b+(8h3z|nW?Uj8t~gkCe9X;AD4jLQ|0'=IAUKs@W_vMEdQx6&N]9
bs@I,TR=&58Px)tW3eB0Qz9_b<x|^3!ZG|;nbv^*m`K1wR,?rvFT[~f1T~MqWg9KvJ5m-Uur?|(m1Dq+7Uz6JM;s:Ie6:?unce!=dsQ8L,,%xM!$hy'1@/
?j!3S*|&VfsTfqH@1Bx6J]Q[%>,)-S+mN2)i]-XRkA/ltHnElPx`6LW/Sj%lvS?:$:%.;v`6#7u|tCODJ:jj8%>pJTU/jqm~1r*noZLO.UT@S?f.fRilRY
(8[hP/LNi*SygR`AW-?Oj/QV%L5X~Zcqi#MI7g@HtF,WgP1`1RLy]h^(gz[(v6D5QfqoS^~M5TCxZ`V?hVypDbNNc:K0$,L0;!<&hi3iLB>eU`m$Aofj]#
@?dGKxm]leEW+%`f~f=`-!-/f<DvmDZW[cMWSOv2W~HyA-C7mFp?:8_^7j46ixx<K!ONty9F'g.q7-#@GtS-^])v~oxmrwF-gRgjJwsbU)@p|4:M[H9Yz3
pA=H*qvPNyQav*?1dy!>|49!@<`?vPnVp.G<wOFphkKi*8wkq&^!:D-.nX!(NXb;!P<I[0?R;_871ELC&`hOrMXy8$Dv,KxRqJ.8LZ=(`Lcd~?5a0j6g@v
ll->>cQXl?H#C4XM7iNxn(P]?qtOn.hS(`.r15n=CaOV~o'pc$;vz17(R;6@Xu;#Yrt6Eg5dZKw%MF$R1?ET7LXu7FlS`0:lMwC!->2$ruj/?!t?iGhT~?
.HIZEI)Wy5dW)cIh:o_-5bir5m'O|xB+cmv+1w5/Ti(Gn<y.xVeL1S-xt(h=+<7LBqKQw(`CEDS0UwU;KS0.odA22EjeK0rP0?]Y<*KNyv=_F&fUzXr&^+
MhL102uZz=s+GALfNPHKp;>Fj_LJ.cnl)cy;[5iM.O<8y9^8=Qorc]Jl;7Ghg(MRCD`px,In-m(M.-a+WHu7GSA#e/,2u.vvE.o6vfSvDXFFuQDGuwig5[
lU]c^,sQR`0YbOO__=juzygN;qaF6fBEg.xmg>:D(JAm`meNe7tedEBsq~.x(p%Ky_7j>?y:z+JOc`D9#J)xjL=yj;*jb8,RC`|dfm''$Zt>12hYfZis)Z
toJAc'>Zj!*QIYG2wwpE30ujFB-gaY=HFys'byLp0S5rVVu55yAnrwK53pC<Gh0,,|,CU:V.Y@P#|M#LC-kgViQ<.PjGnPgoXHuW$RACy4pHiIXrJ@O|Dq
NdhH>]C$UO-#.Prd`|zwX;%*_>~y./~V`)qNhxIls-YV|u`bM*R4B0~?k1T<U]_nAH&>$tRSq9-8sv>b3!`WN<|W?O;0_X^&eTLJu2DERC@Q><dF7hdi4%
YNG~A@;h&1-B%B:#QsKw=.SWbndHZhMAHPO?/M_/eNrj1>SRmtKgxs,vJao%_*sL~p0dj>3|^a.<gv=1adfLCc`/Zo4h0Y&4;nx:;2g(PdCP.=vz^q@?UR
d/V>:WI9N5lv'/YSsXz(B)CqvhJ1#oFqCwd&NRQ~_TKEq]<jGRRv-V3NIs1TTS.eIbU30D[leJ,jGVtp'uvPl0KWq>@GLUor/Ff,jhjU/;^-mklM/le+R~
nUnG2A2`B^G(so-X3p+*h,cO>0;5QpG2]z_%Lr0L5&D5be9ck,04F1>d,?7Jv(UX]iR^Efvh&3wR]:|~qJn=iu~s-F,t3RDRcI$oU%gaunBG?AC13=02lI
`++1-NwxPls:G;;gKM#qISp_<8IU(uwW.V4+j@LM<x:Ey^7[pEFLP0F/1^Bw%u+<>K1cV^Z`c,%D6-!JG0ASvA5>2]N)pJ(T!fFfFNZy_ZoG`#Os~xqWD.
%CH7x*yZX;BJ6:m7qz1E<y:)R]+s#<qq@IU(|0w_#kG%02Ca,LHVR+0igd)>%o/$91v?af=B4LucbA3pX9Z&R/Guu>!4L_DyEd1o~IMz#15N6G]v-.0L/L
>E=TG<4Uh&.S_mof+E+V_aVlk.i::-K&D94A(Xsu2p~c0[lfLrOtN%B$Qc@k-<#C|3w44#4<NcH)63=D(7sw0+F85i)4La#Q@OeqO`M&_L[|7A_2A,<4yq
y7^+$^]a0N7-ll&f+L_0tNelyH*<6iInKc1c@),5xr[_K(2]onr_.mC(c6=*+3J)Kr!+>x^7peE`xJl/$fhjtAPwe#~yT[rl9w|'TXx@b#m3ct>3jXqC*S
RA8?/`hCH4A%6ge96E@|1j@%g|S9G(o|e!+H.PSgyJ7G+U@JT9tW[ogo2~dZHj<-O.A;:0,IX[E1IQY+;v.%zh!ARG*KFNEhYDTe6*G@Gr.~Ov'NdSP8Zn
nR7^<>leP)fZU`)++4?'rgtIe$t;`xv5UnBo-y#r63%+K@%jJ.lTqlUMk?zt27xXFWe2Q$T^H&H.`k$rT])j7otp)IlzP^<+m#YaicHSyZXyFQuF[^'9N.
cXuc[6tD`aLG6rr:!4UNyu<&uH=C*fkm$WObQ+it.sAk@0)IQi5$|EdZg!~4*8.;iiVKQp*2>_#@6IMN_goZE2]0N[V^oE2yIP>//;+go[%lt#p16N('GP
T45f$08+;q]aEW]a(!DzZkLp7BG0;!(mx^<F8d@l.UvTlgAj%>0g_iRJ<gL$^2[TP#iK#%`m_CQO=loq%]-.]6oEwy?aD/q4MRzrT#fG0AO'5^8h1i,,62
5o/V@JyGqvy$%>jUg%u-12YW9K=$*l@n>!.*(:]me7`1.sh6Py6Ay([F~)SspjkB!nsV+-FmR/Cktc;n?==CKPgg=cj$:AM)=ho-kpb't.XK+y<`_l4svj
3XJgZ?P-4T,h_rLGPNVN(cUF10hT$#)?*;aF~lOgnXz;H/*%Y<>o7YHChSgZjk+GTY/(XQf(!&3_~T^eWUN^&![s.hvOX3i!m@Go's7t3dKNtJz5!3Vq[.
ReA!Q(d8rh>`nj3lTSM|_V1YiEfxsb'3K[WKbNQWVW>CIBj/rFS76htT9)6c1tfab-DzFAGMIA`E-[JV=&tPa%aNXwv.sE#QxgrEL/E*v|a')BzyR'El7g
:@-pLXN.jM006#(',l~~/K%3hHR$IiC_-W7XX)xxY#)0&fRc'e1JHI5Uh#3@GoB@<AGOwm<N:=i0Kzmb(=pZuBR_&C`;U>fwzmf:PXU>Zm_+|j5RQs;i$J
'`qS9:GtH2pj0Wt'W7)MILNbbm)@/JntXv=#/.v~JI|_Lkjv|4q4/rK3+p(h&]7a<JX((ip;c+(nr[X~]wYFarH97NeG4vqovU0&oR28b+I+hB@/A0?/.u
32N'+Me]HI&:%l94nAaEI4agLDlV5<@f~)JO+);v)W']$ecnG#4BOaD2[oBfibi6jvrb46y3wSh@~LQ~kmgp,d4FstWWMnN)9l:S3R9bjK(Dj:^!Z.'Ag>
LQ3m$[xJD#WvBy^huxw6M^O&P~:7$E~-g|o_.P$sSA8~m![`?IESLeb,+_Ad;D)pKYt|/?@i(:@wceRBXI*D'o-P0c<o8n4BDL&eHiKh|TZ!d<S!|0/9LI
WpYQ9mQwBB&q/~Nr2Rpb4ZYtx4uX~FfS<(]Q_%es+7YFu^t2Bu'XC=5Q8JLQj>pJMEt&8!-+b$2GlcQk6@z&Dirg/2aM4^m5Gc;50^h*"

end GdScribe.Reference
