import Seraphbot.Data.Latest
import Seraphbot.Data.UnorderedMap
import Seraphbot.Data.Machine
import Seraphbot.Data.History
import Seraphbot.Core.Text
import Seraphbot.Core.Path
import Seraphbot.Core.Json
import Seraphbot.Core.CommandParser
import Seraphbot.Core.Dispatch
import Seraphbot.Lua.Value
import Seraphbot.Lua.Metadata
import Seraphbot.Lua.CooldownTracker
import Seraphbot.Lua.Engine
import Seraphbot.Lua.Loading
import Seraphbot.Lua.Gate
import Seraphbot.Lua.Recovery
import Seraphbot.App.Bot
import Seraphbot.App.Reload
import Seraphbot.App.Unchanged
import Seraphbot.App.Limits
import Seraphbot.Twitch.Auth
import Seraphbot.Twitch.Service
import Seraphbot.Twitch.Interleaving
import Seraphbot.Lua.Registry
import Seraphbot.App.Chat
import Seraphbot.Audio.AudioSystem
import Seraphbot.Audio.Lookup
import Seraphbot.Audio.Sfx
import Seraphbot.Core.Logging
import Seraphbot.Obs.Answers
import Seraphbot.Core.JoinArgs
import Seraphbot.Lua.Permissions
import Seraphbot.Lua.Refusal
import Seraphbot.Twitch.Callback
import Seraphbot.Audio.Pages
import Seraphbot.Ui.Color
import Seraphbot.Twitch.Delivery
import Seraphbot.Ui.Prompt
import Seraphbot.App.Echo
import Seraphbot.Audio.Player
import Seraphbot.Twitch.Requests
import Seraphbot.Twitch.Login
import Seraphbot.Twitch.SharedAuth
import Seraphbot.Discord.Notifications
import Seraphbot.Obs.Lost
import Seraphbot.Obs.PlayVideo
import Seraphbot.Ui.Draw
import Seraphbot.Discord.Panel
import Seraphbot.Twitch.Session
import Seraphbot.Twitch.Freed
import Seraphbot.Audio.Maze
import Seraphbot.Audio.Sandbox
